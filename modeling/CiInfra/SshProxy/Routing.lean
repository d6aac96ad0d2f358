import CiInfra.SshProxy.DomainMappings
import Mathlib.Data.List.Induction

/-!
# Where the SSH proxy leads

The proxy looks up the first label of a hostname among the domain mappings and connects to the
address it finds. It reads neither the mark of a cancelled reservation nor the expiry time. Where a
name leads then depends on what has been written under it since its address was last written.
-/

namespace CiInfra.SshProxy

/-! ### The lookup -/

/-- `hostname.split('.')[0]`. -/
def subdomainOf (hostname : String) : String :=
  String.ofList (hostname.toList.takeWhile (· ≠ '.'))

namespace Mapping

/-- `item.get("target_host") or item.get("node_ip")`. -/
def targetIp (m : Mapping) : Option String := (m.targetHost.filter (· ≠ "")).or m.nodeIp

/-- `int(item.get("target_port") or item.get("node_port", 22))`. -/
def port (m : Mapping) : ℤ := ((m.targetPort.filter (· ≠ 0)).or m.nodePort).getD 22

end Mapping

/-- Look up target IP and port from hostname. -/
def getTargetFromHostname (configured : Bool)
    (getItem : String → Except PutFailure (Option Mapping)) (hostname : String) :
    Option String × Option ℤ :=
  if !configured then (none, none)
  else
    match getItem (subdomainOf hostname) with
    | .error _ => (none, none)
    | .ok none => (none, none)
    | .ok (some item) => (item.targetIp, some item.port)

/-- The test of `handle_connection` before it tunnels: neither is missing or empty. -/
def isTarget (target : Option String × Option ℤ) : Bool :=
  target.1.any (· ≠ "") && target.2.any (· ≠ 0)

/-- The mapping is not marked inactive and expires in the future. -/
def Mapping.Live (now : ℚ) (m : Mapping) : Prop :=
  m.active ≠ some false ∧ ∃ expiry ∈ m.expiresAt, now < expiry.time

/-- Every lookup of the hostname that leads anywhere has found a live mapping. -/
def RoutesToLive (t : Table) (hostname : String) (now : ℚ) : Prop :=
  ∀ (configured : Bool) (getItem : String → Except PutFailure (Option Mapping)),
    (∀ name item, getItem name = .ok item → item = t name) →
      isTarget (getTargetFromHostname configured getItem hostname) = true →
        ∃ m ∈ t (subdomainOf hostname), m.Live now

/-- The mapping has an address to lead to. -/
def Mapping.hasAddress (m : Mapping) : Bool := isTarget (m.targetIp, some m.port)

theorem routesToLive_iff_forall_mem {t : Table} {hostname : String} {now : ℚ} :
    RoutesToLive t hostname now ↔
      ∀ m ∈ t (subdomainOf hostname), m.hasAddress = true → m.Live now := by
  constructor
  · intro h m hm haddress
    have htarget : isTarget (getTargetFromHostname true (fun name => .ok (t name)) hostname) =
        true := by
      rw [getTargetFromHostname, Option.mem_def.mp hm]
      exact haddress
    obtain ⟨m', hm', hlive⟩ := h true _ (fun name item hitem => (Except.ok.inj hitem).symm) htarget
    rw [Option.mem_def.mp hm] at hm'
    rwa [Option.some.inj hm']
  · intro h configured getItem hanswers htarget
    rw [getTargetFromHostname] at htarget
    split at htarget
    · cases htarget
    split at htarget
    · cases htarget
    · cases htarget
    · rename_i item hitem
      have hmem := hanswers _ _ hitem
      exact ⟨item, hmem.symm, h item hmem.symm htarget⟩

/-! ### What a name leads to after a history of writes -/

/-- The item that the write puts in the place of another. -/
def Write.put? : Write → Option Mapping
  | w@(store ..) => w.update none
  | w@(connect ..) => w.update none
  | _ => none

/-- The write puts or deletes the item of the name. -/
def Write.replaces (name : String) : Write → Bool
  | store n .. => n = name
  | connect n .. => n = name
  | delete n => n = name
  | _ => false

def Write.cancels (name : String) : Write → Bool
  | cancel n _ => n = name
  | _ => false

/-- The expiry time that the write extends the name to. -/
def Write.extension? (name : String) : Write → Option Expiry
  | extend n newExpiresAt _ => if n = name then some (.iso newExpiresAt) else none
  | _ => none

/-- The last item put under the name and not deleted since, with what was written after it. -/
def LastPut (history : List Write) (name : String) (m : Mapping) (after : List Write) : Prop :=
  ∃ before w, history = before ++ w :: after ∧ w.domainName = name ∧ w.put? = some m ∧
    ∀ w' ∈ after, w'.replaces name = false

/-- The expiry time last written with or since that item. -/
def lastExpiry (name : String) (m : Mapping) (after : List Write) : Option Expiry :=
  (after.filterMap (Write.extension? name)).getLast?.or m.expiresAt

/-- If the item last put under the name has an address, then it has not been cancelled since, and
the expiry time last written lies in the future. -/
def LastPutLive (history : List Write) (name : String) (now : ℚ) : Prop :=
  ∀ m after, LastPut history name m after → m.hasAddress = true →
    (∀ w ∈ after, w.cancels name = false) ∧ ∃ expiry ∈ lastExpiry name m after, now < expiry.time

section History

variable {history after : List Write} {name : String} {m item : Mapping} {w : Write}

theorem tableAfter_append_singleton (history : List Write) (w : Write) :
    tableAfter (history ++ [w]) = (tableAfter history).write w := by
  rw [tableAfter, List.foldl_append]
  rfl

theorem LastPut.append (h : LastPut history name m after) (hw : w.replaces name = false) :
    LastPut (history ++ [w]) name m (after ++ [w]) := by
  obtain ⟨before, put, rfl, hname, hput, hafter⟩ := h
  refine ⟨before, put, by simp, hname, hput, fun w' hw' => ?_⟩
  rcases List.mem_append.mp hw' with hw' | hw'
  · exact hafter w' hw'
  · rwa [List.mem_singleton.mp hw']

/-- A write under another name neither replaces nor cancels nor extends the item of the name. -/
theorem Write.of_domainName_ne (h : w.domainName ≠ name) :
    w.replaces name = false ∧ w.cancels name = false ∧ w.extension? name = none := by
  cases w <;> simp_all [Write.domainName, Write.replaces, Write.cancels, Write.extension?]

/-- What a put leaves is its item. -/
theorem Write.update_of_put? (h : w.put? = some m) (item : Option Mapping) :
    w.update item = some m := by
  cases w with
  | store => exact h
  | connect => exact h
  | cancel => cases h
  | extend => cases h
  | delete => cases h

theorem Write.active_of_put? (h : w.put? = some m) : m.active ≠ some false := by
  cases w with
  | store =>
    obtain rfl := Option.some.inj h
    simp
  | connect =>
    obtain rfl := Option.some.inj h
    simp
  | cancel => cases h
  | extend => cases h
  | delete => cases h

/-- After the last put the item has its address; it is inactive if it has been cancelled since, and
has the expiry time last written. -/
theorem tableAfter_of_lastPut (h : LastPut history name m after) :
    ∃ item, tableAfter history name = some item ∧ item.hasAddress = m.hasAddress ∧
      (item.active = some false ↔ ∃ w ∈ after, w.cancels name = true) ∧
      item.expiresAt = lastExpiry name m after := by
  obtain ⟨before, put, rfl, hname, hput, hafter⟩ := h
  induction after using List.reverseRecOn with
  | nil =>
    refine ⟨m, ?_, rfl, ?_, rfl⟩
    · rw [tableAfter_append_singleton, Table.write, hname, Function.update_self]
      exact Write.update_of_put? hput _
    · simpa using Write.active_of_put? hput
  | append_singleton after w ih =>
    obtain ⟨item, hitem, haddress, hactive, hexpiry⟩ :=
      ih fun w' hw' => hafter w' (List.mem_append_left _ hw')
    have hw := hafter w (by simp)
    have hhistory : before ++ put :: (after ++ [w]) = before ++ put :: after ++ [w] := by simp
    rw [hhistory, tableAfter_append_singleton, Table.write]
    by_cases hwname : w.domainName = name
    · subst hwname
      rw [Function.update_self, hitem]
      cases w with
      | store => simp [Write.replaces, Write.domainName] at hw
      | connect => simp [Write.replaces, Write.domainName] at hw
      | delete => simp [Write.replaces, Write.domainName] at hw
      | cancel n now =>
        refine ⟨_, rfl, haddress, ?_, ?_⟩
        · simp [Write.cancels, Write.domainName]
        · simpa [lastExpiry, Write.extension?] using hexpiry
      | extend n newExpiresAt now =>
        refine ⟨_, rfl, haddress, ?_, ?_⟩
        · simpa [Write.cancels] using hactive
        · simp [lastExpiry, Write.extension?, Write.domainName]
    · rw [Function.update_of_ne fun h => hwname h.symm]
      obtain ⟨-, hcancels, hextension⟩ := Write.of_domainName_ne hwname
      refine ⟨item, hitem, haddress, ?_, ?_⟩
      · simpa [hcancels] using hactive
      · simpa [lastExpiry, hextension] using hexpiry

/-- An item that an update has created has no address. -/
theorem exists_of_hasAddress_getD {item : Option Mapping}
    (h : (item.getD {}).hasAddress = true) : ∃ m, item = some m := by
  cases item with
  | none => cases h
  | some m => exact ⟨m, rfl⟩

/-- An item with an address was put, and not deleted since. -/
theorem exists_lastPut (h : tableAfter history name = some item)
    (haddress : item.hasAddress = true) : ∃ m after, LastPut history name m after := by
  induction history using List.reverseRecOn generalizing item with
  | nil => cases h
  | append_singleton history w ih =>
    rw [tableAfter_append_singleton, Table.write] at h
    by_cases hname : w.domainName = name
    · subst hname
      rw [Function.update_self] at h
      cases w with
      | store => exact ⟨_, [], history, _, rfl, rfl, rfl, by simp⟩
      | connect => exact ⟨_, [], history, _, rfl, rfl, rfl, by simp⟩
      | delete => cases h
      | cancel n now =>
        obtain rfl := Option.some.inj h
        obtain ⟨item, hitem⟩ := exists_of_hasAddress_getD haddress
        rw [hitem] at haddress
        obtain ⟨m, after, hlast⟩ := ih hitem haddress
        exact ⟨m, _, hlast.append rfl⟩
      | extend n newExpiresAt now =>
        obtain rfl := Option.some.inj h
        obtain ⟨item, hitem⟩ := exists_of_hasAddress_getD haddress
        rw [hitem] at haddress
        obtain ⟨m, after, hlast⟩ := ih hitem haddress
        exact ⟨m, _, hlast.append rfl⟩
    · rw [Function.update_of_ne fun h => hname h.symm] at h
      obtain ⟨m, after, hlast⟩ := ih h haddress
      exact ⟨m, _, hlast.append (Write.of_domainName_ne hname).1⟩

end History

/-- **The SSH proxy routes to live reservations** exactly if the address last put under the name,
if there is one and it has not been deleted, belongs to a reservation that has not been cancelled
since, and the expiry time last written lies in the future. -/
theorem routesToLive_iff (history : List Write) (hostname : String) (now : ℚ) :
    RoutesToLive (tableAfter history) hostname now ↔
      LastPutLive history (subdomainOf hostname) now := by
  rw [routesToLive_iff_forall_mem]
  constructor
  · intro h m after hlast haddress
    obtain ⟨item, hitem, hsame, hactive, hexpiry⟩ := tableAfter_of_lastPut hlast
    obtain ⟨hlive, hfuture⟩ := h item hitem (hsame.trans haddress)
    rw [hexpiry] at hfuture
    refine ⟨fun w hw => ?_, hfuture⟩
    by_contra hcancels
    exact hlive (hactive.mpr ⟨w, hw, Bool.not_eq_false _ ▸ hcancels⟩)
  · intro h item hitem haddress
    obtain ⟨m, after, hlast⟩ := exists_lastPut hitem haddress
    obtain ⟨item', hitem', hsame, hactive, hexpiry⟩ := tableAfter_of_lastPut hlast
    rw [Option.mem_def.mp hitem] at hitem'
    obtain rfl := Option.some.inj hitem'
    obtain ⟨hkept, hfuture⟩ := h m after hlast (hsame ▸ haddress)
    refine ⟨fun hinactive => ?_, hexpiry ▸ hfuture⟩
    obtain ⟨w, hw, hcancels⟩ := hactive.mp hinactive
    rw [hkept w hw] at hcancels
    cases hcancels

/-- A reservation gets its mapping, and is cancelled a minute later. -/
def cancelledWrites : List Write :=
  [.connect "ocean-rat" (some "10.0.0.5") 30022 "reservation" "pod" 7200 0,
    .cancel "ocean-rat" 60]

/-- After another minute its name still leads to the port of its pod. -/
theorem cancelledWrites_route :
    getTargetFromHostname true (fun name => .ok (tableAfter cancelledWrites name))
        "ocean-rat.test.devservers.io" = (some "10.0.0.5", some 30022) ∧
      ¬ RoutesToLive (tableAfter cancelledWrites) "ocean-rat.test.devservers.io" 120 := by
  have htarget : getTargetFromHostname true (fun name => .ok (tableAfter cancelledWrites name))
      "ocean-rat.test.devservers.io" = (some "10.0.0.5", some 30022) := by decide +kernel
  refine ⟨htarget, fun h => ?_⟩
  obtain ⟨m, hm, hlive, -⟩ := h true _ (fun name item hitem => (Except.ok.inj hitem).symm)
    (by rw [htarget]; rfl)
  have hinactive : (tableAfter cancelledWrites (subdomainOf "ocean-rat.test.devservers.io")).bind
      Mapping.active = some false := by decide +kernel
  rw [Option.mem_def.mp hm] at hinactive
  exact hlive hinactive

end CiInfra.SshProxy
