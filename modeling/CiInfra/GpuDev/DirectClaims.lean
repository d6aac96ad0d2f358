import CiInfra.GpuDev.Management
import CiInfra.GpuDev.Redeliveries

/-!
# Claims through the Function URL

A client can ask for a pod of the warm pool in one synchronous request, and goes to the queue if it
gets none. What is answered says whether the record has been made active: a request that is not
served has not come as far as the write that does it, and after that write nothing can go wrong.
-/

namespace CiInfra.GpuDev

open Interaction Fallible

/-- What a request to the Function URL is answered. -/
inductive ClaimResponse
  | notClaimed (reason : String)
  | claimed (reservation : Attributes)

/-- The port in a record, as an integer. -/
def portOf (item : Attributes) : Lambda Value :=
  match item "node_port" with
  | none | some .null => return .null
  | some _ => do
    let port ← intOf item "node_port" 0
    return .number port

/-- The reservation in the answer to a claim. -/
def claimedReservation (item body : Attributes) (nodePort : Value) : Attributes := .ofList
  [("reservation_id",
      ((if item.truthy "reservation_id" then item else body) "reservation_id").getD .null),
    ("status", (item "status").getD (.text "active")),
    ("ssh_command", (item "ssh_command").getD .null),
    ("pod_name", (item "pod_name").getD .null),
    ("node_ip", (item "node_ip").getD .null),
    ("node_port", nodePort),
    ("fqdn", (item "fqdn").getD .null),
    ("expires_at", (item "expires_at").getD .null)]

/-- The end of `handle_direct_claim`, where a pod has been claimed. -/
def answerClaimed (body : Attributes) : Lambda ClaimResponse := do
  let found ← orElseGive (getItem body.key) none
  let item := found.getD fun _ => none
  let nodePort ← portOf item
  return .claimed (claimedReservation item body nodePort)

/-- `handle_direct_claim`; a body that is no JSON is `none`. -/
def handleDirectClaim (cfg : Settings) (minVersion : String) :
    Option Attributes → Lambda ClaimResponse
  | none => return .notClaimed "bad_json"
  | some body =>
    if !warmPoolEligible cfg body then return .notClaimed "ineligible"
    else
      match validateCliVersion minVersion body with
      | some reason => return .notClaimed reason
      | none => do
        let claimed ← tryClaimWarmPod cfg body
        if claimed then answerClaimed body else return .notClaimed "no_warm_pod"

theorem key_claimedReservation (item body : Attributes) (nodePort : Value) :
    (claimedReservation item body nodePort).key =
      (if item.truthy "reservation_id" then item else body).key := by
  generalize hnamed : (if item.truthy "reservation_id" then item else body) = named
  have hid : claimedReservation item body nodePort "reservation_id" =
      some ((named "reservation_id").getD .null) := hnamed ▸ rfl
  unfold Attributes.key Attributes.text
  rw [hid]
  cases named "reservation_id" <;> rfl

/-! ### The call that makes a reservation active -/

/-- What an update makes the status that it was not, it writes. -/
theorem Update.status_of_apply {u : Update} {item item' : Attributes} {s : String}
    (h : u.apply item = some item') (hafter : item' "status" = some (.text s))
    (hbefore : item "status" ≠ some (.text s)) : u.status = some (.text s) := by
  cases u with
  | set fields =>
    cases h
    rw [Attributes.overlay_apply] at hafter
    cases hfields : Attributes.ofList fields "status" with
    | none =>
      rw [hfields] at hafter
      exact absurd hafter hbefore
    | some v =>
      rw [hfields] at hafter
      exact hfields.trans hafter
  | append name v =>
    have hset (l : List Value) (hl : item' = item.set name (.list l)) : name ≠ "status" := by
      rintro rfl
      rw [hl, Attributes.set, Function.update_self] at hafter
      cases hafter
    have hkept (l : List Value) (hl : item' = item.set name (.list l)) :
        item "status" = some (.text s) := by
      rwa [hl, Attributes.set, Function.update_of_ne (hset l hl).symm] at hafter
    simp only [apply] at h
    split at h <;> cases h
    · exact absurd (hkept _ rfl) hbefore
    · exact absurd (hkept _ rfl) hbefore

/-- A record becomes active only by a call that writes so. -/
theorem Op.Answers.statusFor_of_isActive {op : Op} {w w' : World} {res : op.Res} {r : String}
    (h : op.Answers w res w') (hbefore : w.isActive r = false) (hafter : w'.isActive r = true) :
    op.statusFor r = some (.text "active") := by
  obtain ⟨item', hitem', hactive⟩ := World.hasStatus_iff.mp hafter
  have hchanged : w'.table.get r ≠ w.table.get r := fun hsame => by
    rw [World.isActive, World.hasStatus, ← hsame] at hbefore
    exact Bool.false_ne_true (hbefore.symm.trans hafter)
  rcases h.cases with rfl | heffect
  · exact absurd rfl hchanged
  cases op with
  | updateItem id u =>
    obtain ⟨t', ht, rfl⟩ := World.withTable_eq_some heffect
    obtain ⟨item, happly, rfl⟩ := Table.update_eq_some ht
    by_cases hid : id = r
    · subst hid
      obtain rfl : item = item' := Option.some.inj ((Table.get_store_self _ _ _).symm.trans hitem')
      rw [statusFor, if_pos rfl]
      refine Update.status_of_apply happly hactive fun hold => ?_
      cases hget : w.table.get id with
      | none =>
        rw [hget] at hold
        cases hold
      | some old =>
        rw [hget] at hold
        exact Bool.false_ne_true (hbefore.symm.trans (World.hasStatus_iff.mpr ⟨old, hget, hold⟩))
    · exact absurd (Table.get_store_of_ne _ (Ne.symm hid) _) hchanged
  | putItem item condition =>
    obtain ⟨t', ht, rfl⟩ := World.withTable_eq_some heffect
    obtain ⟨-, rfl⟩ := Table.put_eq_some ht
    by_cases hkey : item.key = r
    · subst hkey
      obtain rfl : item = item' := Option.some.inj ((Table.get_store_self _ _ _).symm.trans hitem')
      rw [statusFor, if_pos rfl, hactive]
    · exact absurd (Table.get_store_of_ne _ (Ne.symm hkey) _) hchanged
  | deleteItem id =>
    obtain ⟨t', ht, rfl⟩ := World.withTable_eq_some heffect
    cases ht
    by_cases hid : id = r
    · subst hid
      cases (Table.get_delete_self _ _).symm.trans hitem'
    · exact absurd (Table.get_delete_of_ne _ (Ne.symm hid)) hchanged
  | createPod name p =>
    obtain ⟨-, rfl⟩ := World.createPod_eq_some heffect
    exact absurd rfl hchanged
  | patchPod name labels annotations =>
    obtain ⟨p, -, rfl⟩ := World.modifyPod_eq_some heffect
    exact absurd rfl hchanged
  | deletePod name =>
    obtain ⟨p, -, rfl⟩ := World.modifyPod_eq_some heffect
    exact absurd rfl hchanged
  | _ => cases heffect; exact absurd rfl hchanged

/-- The call makes no other reservation active. -/
def Op.ActivatesOnly (r : String) (op : Op) : Prop :=
  ∀ r', isReservationKey r' = true → op.statusFor r' = some (.text "active") → r' = r

instance {r : String} : Covers r (Op.ActivatesOnly r) where
  quiet op hop r' _ hactive := by cases op <;> first | cases hop; done | cases hactive
  update u _ r' _ hactive := by
    by_contra hne
    rw [Op.statusFor, if_neg (Ne.symm hne)] at hactive
    cases hactive

theorem IsKeyCachePut.statusFor {item : Attributes} {condition : Option Condition} {r : String}
    (h : IsKeyCachePut item condition) (hr : isReservationKey r = true) :
    (Op.putItem item condition).statusFor r = none := by
  obtain ⟨user, hkey, -⟩ := h
  refine if_neg fun heq => ?_
  rw [← heq, hkey, isReservationKey_sshKeyCacheKey] at hr
  cases hr

theorem Op.IsFor.activatesOnly {r : String} {puts : Attributes → Prop} {op : Op}
    (hop : op.IsFor r puts) : op.ActivatesOnly r := by
  intro r' hr' hactive
  cases op with
  | updateItem id u =>
    by_contra hne
    rw [statusFor, if_neg fun hid => hne (hid.symm.trans hop.1)] at hactive
    cases hactive
  | putItem item condition =>
    rcases hop with ⟨hkey, -⟩ | hcache
    · by_contra hne
      rw [statusFor, if_neg fun hid => hne (hid.symm.trans hkey)] at hactive
      cases hactive
    · cases hactive.symm.trans (hcache.statusFor hr')
  | _ => cases hactive

theorem Op.IsClaimFor.activatesOnly {r : String} {op : Op} (hop : op.IsClaimFor r) :
    op.ActivatesOnly r := by
  intro r' hr' hactive
  cases op with
  | updateItem id u =>
    by_contra hne
    rw [statusFor, if_neg fun hid => hne (hid.symm.trans hop.1)] at hactive
    cases hactive
  | putItem item condition =>
    rcases hop with ⟨-, hkey, -⟩ | hcache
    · by_contra hne
      rw [statusFor, if_neg fun hid => hne (hid.symm.trans hkey)] at hactive
      cases hactive
    · cases hactive.symm.trans (hcache.statusFor hr')
  | _ => cases hactive

section Handlers

variable {cfg : Settings} {minVersion : String} {body : Attributes}

theorem issues_answerClaimed {P : Op → Prop} [AllowsQuiet P] : (answerClaimed body).Issues P := by
  refine (Issues.orElseGive (issues_quiet rfl) _).bind fun found => Issues.bind ?_ fun _ => trivial
  unfold portOf
  split
  · exact issues_pure _
  · exact issues_pure _
  · exact (issues_intOf _ _ _).bind fun _ => trivial

/-- A direct claim makes its own reservation active, if any. -/
theorem issues_handleDirectClaim :
    (handleDirectClaim cfg minVersion (some body)).Issues (Op.ActivatesOnly body.key) := by
  rw [handleDirectClaim]
  split
  · exact issues_pure _
  split
  · exact issues_pure _
  refine (issues_tryClaimWarmPod.mono fun _ hop => hop.activatesOnly).bind fun claimed => ?_
  split
  · exact issues_answerClaimed
  · exact issues_pure _

/-- So does a message that asks for a reservation of one node. -/
theorem issues_handleMessage (hbody : body.NamesReservation) (hplain : isPlainRequest body = true)
    (hsingle : body.truthy "is_multinode" = false) :
    (handleMessage cfg minVersion body).Issues (Op.ActivatesOnly body.key) := by
  refine Issues.orElseGive ?_ _
  rw [if_pos hplain, dispatch_of_isPlainRequest hplain]
  split
  · refine Issues.bind (Issues.whenever _ (Issues.logged (issues_quiet rfl))) fun _ =>
      Issues.bind (Issues.whenever _ (issues_updateReservationStatus (by decide) _ _)) fun _ => ?_
    exact issues_pure _
  · rw [Action.handle, if_pos hplain]
    exact (meets_handleReservationMessage
      (issues_tryClaimWarmPod.mono fun _ hop => hop.activatesOnly).meets
      ((issues_coldPath hbody.1 hsingle).mono fun _ hop => hop.activatesOnly).meets).issues

end Handlers

/-! ### What the answer says -/

/-- No call has made the reservation active. -/
def NotActivated (r : String) (past : List (Program.Event Op Op.Res)) : Prop :=
  ∀ c ∈ past, c.1.statusFor r ≠ some (.text "active")

/-- An item that is shown is that of the key that was asked for. -/
def ShowsKey : Program.Event Op Op.Res → Prop
  | ⟨.getItem id _, .ok (some item)⟩ => item.key = id
  | _ => True

/-- The answer is right about a claim for the reservation: it has not been made active, or it is
the one that is named. -/
def ClaimResponse.IsRight (r : String) (past : List (Program.Event Op Op.Res)) :
    ClaimResponse → Prop
  | notClaimed _ => NotActivated r past
  | claimed reservation => (∀ c ∈ past, ShowsKey c) → reservation.key = r

section Answers

variable {cfg : Settings} {minVersion : String} {body : Attributes} {r : String}
  {past : List (Program.Event Op Op.Res)}

/-- What makes no reservation active keeps one from having been made so. -/
theorem heeds_notActivated {α : Type} {p : Lambda α}
    (h : p.Issues fun op => op.statusFor r ≠ some (.text "active")) (hpast : NotActivated r past) :
    p.Heeds (fun _ _ => True) (fun past _ => NotActivated r past)
      (fun past _ => NotActivated r past) past :=
  h.heeds (fun _ _ _ _ => trivial) (fun _ _ _ hK hop => List.forall_mem_cons.mpr ⟨hop, hK⟩) hpast

theorem statusFor_of_isQuiet {op : Op} (h : op.IsQuiet = true) :
    op.statusFor r ≠ some (.text "active") := by
  intro hactive
  cases op <;> first | cases h; done | cases hactive

instance : AllowsQuiet fun op : Op => op.statusFor r ≠ some (.text "active") where
  quiet _ := statusFor_of_isQuiet

/-- The connection of a claimed pod is recorded to the end once the record has been written
to. -/
theorem heeds_updateReservationConnectionInfo (info : ConnectionInfo)
    (hpast : NotActivated r past) :
    (updateReservationConnectionInfo r info).Heeds (fun _ _ => True) (fun _ _ => True)
      (fun past _ => NotActivated r past) past := by
  refine (heeds_notActivated (issues_quiet rfl) hpast).bind fun past item hpast => ?_
  split
  · exact heeds_throw hpast
  refine (heeds_notActivated (issues_floatOf _ _ _) hpast).bind fun past _ hpast => ?_
  refine (heeds_notActivated (issues_quiet rfl) hpast).bind fun past _ hpast => ?_
  refine (heeds_notActivated (issues_quiet rfl) hpast).bind fun past _ hpast => ?_
  refine (heeds_notActivated (Issues.orElseGive (issues_quiet rfl) _) hpast).bind
    fun past _ hpast => ?_
  refine (heeds_notActivated (Issues.orElseGive (issues_quiet rfl) _) hpast).bind
    fun past _ hpast => ?_
  refine (heeds_notActivated (Issues.orElseGive (issues_quiet rfl) _) hpast).bind
    fun past _ hpast => ?_
  refine (heeds_notActivated (issues_verifyJupyter _ _) hpast).bind fun past _ hpast => ?_
  refine Heeds.bind (Q := fun _ _ => True) (Heeds.logged (Heeds.whenever trivial fun _ => ?_))
    fun past _ _ => ?_
  · refine Heeds.bind (Q := fun _ _ => True) ?_ fun _ _ _ => ?_
    · exact heeds_request trivial (fun _ _ _ => trivial) fun _ _ _ => trivial
    · exact heeds_request trivial (fun _ _ _ => trivial) fun _ _ _ => trivial
  · split
    · exact Heeds.logged (heeds_request trivial (fun _ _ _ => trivial) fun _ _ _ => trivial)
    · exact heeds_pure trivial

/-- A claim gives up only what it has not made active. -/
def GivesUpInactive (r : String) (past : List (Program.Event Op Op.Res)) (claimed : Bool) : Prop :=
  claimed = true ∨ NotActivated r past

/-- A claim that raises something once it has its pod has not made the record active. -/
theorem heeds_recordClaim (gpuCount : ℤ) (candidate : NamedPod)
    (hpast : NotActivated body.key past) :
    (recordClaim cfg body gpuCount candidate).Heeds (fun _ _ => True)
      (GivesUpInactive body.key) (fun past _ => NotActivated body.key past) past := by
  refine (heeds_notActivated (issues_quiet rfl) hpast).bind fun past _ hpast => ?_
  refine (heeds_notActivated (issues_floatOf _ _ _) hpast).bind fun past _ hpast => ?_
  refine (heeds_notActivated (issues_quiet rfl) hpast).bind fun past _ hpast => ?_
  refine (heeds_notActivated (issues_quiet rfl) hpast).bind fun past _ hpast => ?_
  refine (heeds_notActivated (issues_request ?_) hpast).bind fun past _ hpast => ?_
  · intro hactive
    rw [Op.statusFor, if_pos (key_claimedRecord _ _ _ _)] at hactive
    have hpreparing : some (Value.text "preparing") = some (.text "active") := hactive
    simp at hpreparing
  refine (heeds_notActivated (issues_claimedAddress _ _) hpast).bind fun past _ hpast => ?_
  refine (heeds_notActivated (issues_bindDomain _) hpast).bind fun past _ hpast => ?_
  refine (heeds_updateReservationConnectionInfo _ hpast).bind fun past _ _ => ?_
  -- All that follows is logged.
  have hlogged {past : List (Program.Event Op Op.Res)} (o : Outside) :
      (logged (attempt o)).Heeds (fun _ _ => True) (fun _ _ => True)
        (fun past _ => NotActivated body.key past) past :=
    Heeds.logged (heeds_request trivial (fun _ _ _ => trivial) fun _ _ _ => trivial)
  refine Heeds.bind (Q := fun _ _ => True) ?_ fun past _ _ => (hlogged _).bind fun past _ _ =>
    (hlogged _).bind fun past _ _ => (hlogged _).bind fun past _ _ => heeds_pure (Or.inl rfl)
  refine Heeds.whenever trivial fun _ => Heeds.logged (Heeds.bind (Q := fun _ _ => True) ?_
    fun _ _ _ => ?_)
  · exact heeds_request trivial (fun _ _ _ => trivial) fun _ _ _ => trivial
  · exact heeds_request trivial (fun _ _ _ => trivial) fun _ _ _ => trivial

theorem heeds_claimWarmPod_givesUpInactive (hbody : body.NamesReservation)
    (hpast : NotActivated body.key past) :
    (claimWarmPod cfg body).Heeds (fun _ _ => True) (GivesUpInactive body.key)
      (fun past _ => NotActivated body.key past) past := by
  refine (heeds_notActivated (issues_intOf _ _ _) hpast).bind fun past gpuCount hpast => ?_
  split
  · exact heeds_pure (Or.inr hpast)
  have hcache (item : Attributes) (user : String) (hkey : item.key = sshKeyCacheKey user) :
      (Op.putItem item none).statusFor body.key ≠ some (.text "active") := by
    rw [IsKeyCachePut.statusFor ⟨user, hkey, rfl⟩ hbody.2]
    simp
  refine (heeds_notActivated (issues_getGithubPublicKey hcache _) hpast).bind
    fun past key hpast => ?_
  split
  · exact heeds_pure (Or.inr hpast)
  refine (heeds_notActivated (issues_quiet rfl) hpast).bind fun past pods hpast => ?_
  split
  · exact heeds_pure (Or.inr hpast)
  refine (heeds_notActivated (issues_request ?_) hpast).bind fun past _ hpast => ?_
  · intro hactive
    cases hactive
  · exact heeds_recordClaim _ _ hpast

/-- The answer to the item names the reservation. -/
theorem heeds_answerClaimed :
    (answerClaimed body).Heeds (fun _ _ => True) (
      fun past response => response.IsRight body.key past)
      (fun _ _ => True) past := by
  have hshown : (orElseGive (getItem body.key) none).Heeds (fun _ _ => True)
      (fun past found => (∀ c ∈ past, ShowsKey c) → ∀ item ∈ found, item.key = body.key)
      (fun _ _ => True) past := by
    refine Heeds.orElseGive (E := fun _ _ => True) (heeds_request trivial ?_ fun _ _ _ => trivial)
      fun past _ _ _ item hitem => ?_
    · intro res found hres hshows item hitem
      obtain rfl := Option.mem_def.mp hitem
      subst hres
      exact hshows _ List.mem_cons_self
    · cases hitem
  refine hshown.bind fun past found hfound => ?_
  have hport : (portOf (found.getD fun _ => none)).Issues fun _ => True :=
    Program.onlyCalls_of_forall (fun _ => trivial) _
  have hkept := hport.heeds
    (K := fun past => (∀ c ∈ past, ShowsKey c) → ∀ item ∈ found, item.key = body.key)
    (P := fun _ _ => True) (fun _ _ _ _ => trivial)
    (fun past op res hK _ hshows => hK (List.forall_mem_cons.mp hshows).2) hfound
  refine (hkept.mono (fun _ _ h => h) fun _ _ _ => trivial).bind fun past port hfound =>
    heeds_pure fun hshows => ?_
  rw [key_claimedReservation]
  split
  · cases found with
    | none => contradiction
    | some item => exact hfound hshows item rfl
  · rfl

/-- What `handle_direct_claim` answers is right. -/
theorem heeds_handleDirectClaim (hbody : body.NamesReservation) :
    (handleDirectClaim cfg minVersion (some body)).Heeds (fun _ _ => True)
      (fun past response => response.IsRight body.key past) (fun _ _ => True) [] := by
  have hnothing : NotActivated body.key [] := by simp [NotActivated]
  rw [handleDirectClaim]
  split
  · exact heeds_pure hnothing
  split
  · exact heeds_pure hnothing
  refine Heeds.bind (Heeds.orElseGive (heeds_claimWarmPod_givesUpInactive hbody hnothing)
    fun past _ hpast => Or.inr hpast) fun past claimed hclaimed => ?_
  split
  · exact heeds_answerClaimed
  · rename_i hmiss
    exact heeds_pure (hclaimed.resolve_left hmiss)

end Answers

end CiInfra.GpuDev
