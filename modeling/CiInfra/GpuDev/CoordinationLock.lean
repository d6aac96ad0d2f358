import CiInfra.GpuDev.QueuedParameters
import Mathlib.Algebra.Order.Ring.Rat

/-!
# The coordination lock

The lock of a multinode group is an item of the reservations table. A coordinator puts it on
condition that there is none or that its time is over. It deletes it without a condition, early
when it starts the nodes and once more at its end, also if its put was refused. The item bears the
id of the group, so that every scan for the group may show it as one of the records.
-/

namespace CiInfra.GpuDev

open Interaction Fallible

section Holding

variable {ι : Type} [DecidableEq ι]

/-- An acquire that succeeds: who acquires, the reading of the clock, and until when. -/
def acquired (m : String) (e : Occurrence ι) : Option (ι × ℚ × ℚ) :=
  match e.call with
  | some (i, ⟨.putItem item (some (.lockFree now)), .ok ()⟩) =>
    if item.key = lockKey m then some (i, now, item.number "expires_at" 0) else none
  | _ => none

/-- A party releases the lock. -/
def releasedBy (m : String) (i : ι) (e : Occurrence ι) : Bool :=
  match e.call with
  | some (j, ⟨.deleteItem id, _⟩) => j = i && id = lockKey m
  | _ => false

/-- A clock is read that shows a later time. -/
def clockPasses (deadline : ℚ) (e : Occurrence ι) : Bool :=
  match e.call with
  | some (_, ⟨.epoch, now⟩) => deadline < (now : ℚ).floor
  | _ => false

/-- Who holds the lock, and until when: the party whose acquire was the last to succeed, until
it releases the lock or a clock shows that its time is over. -/
def holderOf (m : String) : List (Occurrence ι) → Option (ι × ℚ)
  | [] => none
  | e :: past =>
    match acquired m e with
    | some (i, _, deadline) => some (i, deadline)
    | none => (holderOf m past).filter fun h => !releasedBy m h.1 e && !clockPasses h.2 e

/-- The lock is put with an expiry, and stored. -/
def Stores (m : String) (q : ℚ) (e : Occurrence ι) : Prop :=
  ∃ i item now res, e.call = some (i, ⟨.putItem item (some (.lockFree now)), res⟩) ∧
    item "expires_at" = some (.number q) ∧ e.after.table.get (lockKey m) = some item

/-- The lock is deleted. -/
def Frees (m : String) (e : Occurrence ι) : Prop :=
  ∃ i, e.call = some (i, ⟨.deleteItem (lockKey m), .ok ()⟩)

end Holding

/-- A call that treats the lock as a lock, if it touches it at all. -/
def Op.LeavesLock (m : String) : Op → Prop
  | updateItem id _ => id ≠ lockKey m
  | putItem item condition => item.key ≠ lockKey m ∨ ∃ createdAt, ∃ now : ℤ,
    item = lockItem m createdAt (now + 300) ∧ condition = some (.lockFree now)
  | _ => True

/-- The lock is a lock. -/
structure LockIsKept {ι : Type} [DecidableEq ι] (m : String) (es : List (Occurrence ι))
    (w : World) : Prop where
  /-- While the lock is held, it is in the table, for at least as long. -/
  stored : ∀ h, holderOf m es = some h → ∃ item q, w.table.get (lockKey m) = some item ∧
    item "expires_at" = some (.number q) ∧ h.2 ≤ q
  /-- While it is held, no other acquire succeeds unless its clock shows that the time is over. -/
  exclusive : ∀ later e earlier, es = later ++ e :: earlier → ∀ i now deadline,
    acquired m e = some (i, now, deadline) → ∀ h, holderOf m earlier = some h → h.1 = i ∨ h.2 < now
  /-- While it is held, no other party deletes it. -/
  undisturbed : ∀ later e earlier, es = later ++ e :: earlier → ∀ i, releasedBy m i e = true →
    ∀ h, holderOf m earlier = some h → h.1 = i
  /-- An acquire is refused only for a lock that has been put since the last release and whose
  time is not over. -/
  available : ∀ later e earlier, es = later ++ e :: earlier → ∀ i item now res,
    e.call = some (i, ⟨.putItem item (some (.lockFree now)), res⟩) → item.key = lockKey m →
      (Op.putItem item (some (.lockFree now))).effect e.before = none →
        ∃ q, now ≤ q ∧ LookedSince (fun _ d => Stores m q d) (Frees m) earlier
  /-- It is never treated as a reservation. -/
  notAReservation : ∀ e ∈ es, ∀ c ∈ e.call, c.2.1.LeavesLock m

/-- The id is not that of the lock. -/
def isNotLock (m id : String) : Bool := id ≠ lockKey m

/-- The answer does not show the lock among the records. -/
def hidesLock (m : String) : Program.Event Op Op.Res → Bool
  | ⟨.find _, .ok items⟩ => items.all fun item => isNotLock m item.key
  | ⟨.getItem _ _, .ok (some item)⟩ => isNotLock m item.key
  | ⟨.freshId, id⟩ => isNotLock m id
  | _ => true

/-- Who releases the lock holds it, if anybody does, and no record that is shown is the lock. -/
structure RespectsLock {ι : Type} [DecidableEq ι] (m : String) (past : List (Occurrence ι))
    (e : Occurrence ι) : Prop where
  release : ∀ c ∈ e.call, releasedBy m c.1 e = true → ∀ h ∈ holderOf m past, h.1 = c.1
  hidden : ∀ c ∈ e.call, hidesLock m c.2 = true

instance {ι : Type} [DecidableEq ι] (m : String) (past : List (Occurrence ι)) (e : Occurrence ι) :
    Decidable (RespectsLock m past e) :=
  decidable_of_iff ((∀ c ∈ e.call, releasedBy m c.1 e = true → ∀ h ∈ holderOf m past, h.1 = c.1) ∧
    ∀ c ∈ e.call, hidesLock m c.2 = true) ⟨fun h => ⟨h.1, h.2⟩, fun h => ⟨h.release, h.hidden⟩⟩

/-! ### What the parties do -/

/-- The messages name reservations, and the monitors watch them. -/
def Invocation.OfReservations : Invocation → Prop
  | message body => body.NamesReservation
  | monitor _ reservationId _ => isReservationKey reservationId = true
  | _ => True

instance : DecidablePred Invocation.OfReservations
  | .message body => inferInstanceAs (Decidable body.NamesReservation)
  | .monitor _ reservationId _ =>
    inferInstanceAs (Decidable (isReservationKey reservationId = true))
  | .sweep => isTrue trivial
  | .cancellation _ => isTrue trivial
  | .expiry => isTrue trivial

theorem lockKey_injective {m m' : String} (h : lockKey m = lockKey m') : m = m' := by
  have hlist := congrArg String.toList h
  simp only [lockKey, String.toList_append, List.append_cancel_left_eq] at hlist
  exact String.toList_inj.mp hlist

theorem ne_lockKey_of_isReservationKey {r : String} (h : isReservationKey r = true) (m : String) :
    r ≠ lockKey m := by
  rintro rfl
  rw [isReservationKey_lockKey] at h
  cases h

theorem sshKeyCacheKey_ne_lockKey (user m : String) : sshKeyCacheKey user ≠ lockKey m := by
  intro h
  have hlist := congrArg String.toList h
  simp [sshKeyCacheKey, lockKey] at hlist

theorem key_multinodeRecord (cfg : Settings) (request : Attributes) (now expiresAt : String) :
    (multinodeRecord cfg request now expiresAt).key = request.key := by
  have hid : multinodeRecord cfg request now expiresAt "reservation_id" =
      some ((request "reservation_id").getD .null) := by
    simp only [multinodeRecord]
    rw [Attributes.set_of_ne _ (by decide), Attributes.carryTruthy_of_ne _ _ _ (by decide),
      Attributes.carryTruthy_of_ne _ _ _ (by decide), Attributes.carryTruthy_of_ne _ _ _
      (by decide)]
    rfl
  unfold Attributes.key Attributes.text
  rw [hid]
  cases request "reservation_id" <;> rfl

section Parties

variable {m : String}

theorem ne_of_isNotLock {id : String} (h : isNotLock m id = true) : id ≠ lockKey m :=
  of_decide_eq_true h

theorem showsOnly_hidesLock : ShowsOnly (fun c => hidesLock m c = true) (· ≠ lockKey m) where
  found _ _ h item hitem := ne_of_isNotLock (List.all_eq_true.mp h item hitem)
  got _ _ _ h := ne_of_isNotLock h
  fresh _ h := ne_of_isNotLock h

theorem Op.LeavesLock.connects {r : String} (h : r ≠ lockKey m) : Connects r (Op.LeavesLock m) where
  quiet op h := by cases op <;> first | cases h; done | trivial
  update _ _ := h
  cache _ user h := Or.inl (h ▸ sshKeyCacheKey_ne_lockKey user m)
  deletePod _ := trivial
  createVolume _ _ := trivial
  createPod _ := trivial
  connection _ _ _ := h

instance : AllowsQuiet (Op.LeavesLock m) where
  quiet op h := by cases op <;> first | cases h; done | trivial

theorem Op.LeavesLock.coordinates (master : String) :
    Coordinates (· ≠ lockKey m) (Op.LeavesLock m) master where
  connects _ h := Op.LeavesLock.connects h
  created _ h := Or.inl h
  lock createdAt now := by
    by_cases h : master = m
    · subst h
      exact Or.inr ⟨createdAt, now, rfl, rfl⟩
    · exact Or.inl fun hkey => h (lockKey_injective hkey)
  unlock := trivial

theorem Op.IsClaimFor.leavesLock {r : String} {op : Op} (hr : r ≠ lockKey m)
    (h : op.IsClaimFor r) : op.LeavesLock m := by
  cases op with
  | updateItem id u => exact fun hid => hr (h.1.symm.trans hid)
  | putItem item condition =>
    rcases h with ⟨-, hkey, -⟩ | ⟨user, hkey, -⟩
    · exact Or.inl (hkey ▸ hr)
    · exact Or.inl (hkey ▸ sshKeyCacheKey_ne_lockKey user m)
  | _ => trivial

/-- As long as the lock is hidden, no party treats it as a reservation. -/
theorem Invocation.leavesLock (cfg : Settings) {inv : Invocation} (h : inv.OfReservations) :
    (inv.program cfg).Within (fun c => hidesLock m c = true) (Op.LeavesLock m) fun _ => True := by
  cases inv with
  | message body =>
    have hkey : body.key ≠ lockKey m := ne_lockKey_of_isReservationKey h.2 m
    have := Op.LeavesLock.connects hkey
    refine within_toItsEnd (meets_handleReservationMessage
      (issues_tryClaimWarmPod.mono fun _ h => h.leavesLock hkey).meets
      (meets_processReservationRequest_of (fun _ => ?_) fun _ => ?_))
    · exact meets_processMultinode showsOnly_hidesLock (Op.LeavesLock.coordinates _)
        fun _ _ => Or.inl (key_multinodeRecord cfg body _ _ ▸ hkey)
    · exact meets_processSingleNodeRequest (fun _ hitem _ => Or.inl (hitem ▸ hkey))
        (fun _ _ => (issues_allocateGpuResources _ _ _).meets) h.1
  | sweep =>
    exact within_toItsEnd (meets_processScheduledQueueManagement showsOnly_hidesLock
      fun _ h => Op.LeavesLock.connects h)
  | monitor podName r rounds =>
    have := Op.LeavesLock.connects (ne_lockKey_of_isReservationKey h m)
    exact within_toItsEnd (issues_monitorLoop podName rounds).meets
  | cancellation message =>
    exact within_toItsEnd (meets_processCancellationRequest showsOnly_hidesLock
      (fun _ h => Op.LeavesLock.connects h) message)
  | expiry =>
    exact within_toItsEnd (meets_expiryHandler showsOnly_hidesLock
      fun _ h => Op.LeavesLock.connects h)

end Parties

/-! ### What a call does to the lock -/

section Holding

variable {ι : Type} [DecidableEq ι] {m : String} {e : Occurrence ι} {past es : List (Occurrence ι)}

omit [DecidableEq ι] in
theorem acquired_eq_some {i : ι} {now deadline : ℚ} (h : acquired m e = some (i, now, deadline)) :
    ∃ item, e.call = some (i, ⟨.putItem item (some (.lockFree now)), .ok ()⟩) ∧
      item.key = lockKey m ∧ item.number "expires_at" 0 = deadline := by
  unfold acquired at h
  split at h
  · split at h
    · cases h
      exact ⟨_, ‹_›, ‹_›, rfl⟩
    · cases h
  · cases h

theorem lockItem_of_leavesLock {item : Attributes} {condition : Option Condition}
    (h : (Op.putItem item condition).LeavesLock m) (hkey : item.key = lockKey m) :
    ∃ createdAt, ∃ now : ℤ, item = lockItem m createdAt (now + 300) ∧
      condition = some (.lockFree now) := h.resolve_left fun hne => hne hkey

/-- A lock whose put goes through was free. -/
theorem get_of_put {item : Attributes} {now : ℚ} {w w' : World} (hkey : item.key = lockKey m)
    (h : (Op.putItem item (some (.lockFree now))).effect w = some w') :
    (Condition.lockFree now).holds (w.table.get (lockKey m)) = true ∧
      w'.table.get (lockKey m) = some item := by
  obtain ⟨t', ht, rfl⟩ := World.withTable_eq_some h
  obtain ⟨hholds, rfl⟩ := Table.put_eq_some ht
  rw [← hkey]
  exact ⟨by simpa using hholds, Table.get_store_self _ _ _⟩

/-- A call leaves the lock alone, puts it when it is free, or deletes it. -/
theorem Op.LeavesLock.lock_cases {op : Op} {res : op.Res} {w w' : World} (hop : op.LeavesLock m)
    (h : op.Answers w res w') :
    w'.table.get (lockKey m) = w.table.get (lockKey m) ∨
    (∃ createdAt, ∃ now : ℤ,
      op = putItem (lockItem m createdAt (now + 300)) (some (.lockFree now)) ∧
      (Condition.lockFree now).holds (w.table.get (lockKey m)) = true ∧
      w'.table.get (lockKey m) = some (lockItem m createdAt (now + 300))) ∨
    (op = deleteItem (lockKey m) ∧ w'.table.get (lockKey m) = none) := by
  rcases h.cases with rfl | heffect
  · exact Or.inl rfl
  cases op with
  | updateItem id u =>
    obtain ⟨t', ht, rfl⟩ := World.withTable_eq_some heffect
    obtain ⟨item, -, rfl⟩ := Table.update_eq_some ht
    exact Or.inl (Table.get_store_of_ne _ (Ne.symm hop) item)
  | putItem item condition =>
    by_cases hkey : item.key = lockKey m
    · obtain ⟨createdAt, now, rfl, rfl⟩ := lockItem_of_leavesLock hop hkey
      obtain ⟨hholds, hstored⟩ := get_of_put hkey heffect
      exact Or.inr (Or.inl ⟨createdAt, now, rfl, hholds, hstored⟩)
    · obtain ⟨t', ht, rfl⟩ := World.withTable_eq_some heffect
      obtain ⟨-, rfl⟩ := Table.put_eq_some ht
      exact Or.inl (Table.get_store_of_ne _ (Ne.symm hkey) item)
  | deleteItem id =>
    cases heffect
    by_cases hid : id = lockKey m
    · subst hid
      exact Or.inr (Or.inr ⟨rfl, Table.get_delete_self _ _⟩)
    · exact Or.inl (Table.get_delete_of_ne _ (Ne.symm hid))
  | createPod name p =>
    obtain ⟨-, rfl⟩ := World.createPod_eq_some heffect
    exact Or.inl rfl
  | patchPod name labels annotations =>
    obtain ⟨p, -, rfl⟩ := World.modifyPod_eq_some heffect
    exact Or.inl rfl
  | deletePod name =>
    obtain ⟨p, -, rfl⟩ := World.modifyPod_eq_some heffect
    exact Or.inl rfl
  | _ => cases heffect; exact Or.inl rfl

/-! ### The invariant -/

/-- The stored lock has been put since the last release, and outlasts the hold. -/
structure LockInvariant (m : String) (es : List (Occurrence ι)) (w : World) : Prop where
  outstanding : ∀ item, w.table.get (lockKey m) = some item →
    ∃ q, item "expires_at" = some (.number q) ∧
      LookedSince (fun _ d => Stores m q d) (Frees m) es
  stored : ∀ h, holderOf m es = some h → ∃ item q, w.table.get (lockKey m) = some item ∧
    item "expires_at" = some (.number q) ∧ h.2 ≤ q

/-- Who holds the lock after a happening held it before, unless it has just acquired it. -/
theorem holderOf_cons {h : ι × ℚ} (hholder : holderOf m (e :: past) = some h) :
    (∃ now, acquired m e = some (h.1, now, h.2)) ∨
      (holderOf m past = some h ∧ releasedBy m h.1 e = false) := by
  unfold holderOf at hholder
  split at hholder
  · cases hholder
    exact Or.inl ⟨_, ‹_›⟩
  · obtain ⟨hpast, hkept⟩ := Option.filter_eq_some_iff.mp hholder
    simp only [Bool.and_eq_true, Bool.not_eq_true'] at hkept
    exact Or.inr ⟨hpast, hkept.1⟩

/-- A change that leaves the lock alone keeps the invariant. -/
theorem LockInvariant.env (hbefore : LockInvariant m past e.before) (hcall : e.call = none)
    (hkept : KeepsRecord (lockKey m) e.before e.after) : LockInvariant m (e :: past) e.after where
  outstanding item hitem := by
    obtain ⟨q, hq, hsince⟩ := hbefore.outstanding item (hkept ▸ hitem)
    refine ⟨q, hq, ?_, Or.inr hsince⟩
    rintro ⟨i, hfrees⟩
    rw [hcall] at hfrees
    cases hfrees
  stored h hholder := by
    rcases holderOf_cons hholder with ⟨now, hacquired⟩ | ⟨hpast, -⟩
    · obtain ⟨item, hput, -⟩ := acquired_eq_some hacquired
      rw [hcall] at hput
      cases hput
    · obtain ⟨item, q, hitem, hrest⟩ := hbefore.stored h hpast
      exact ⟨item, q, hkept.trans hitem, hrest⟩

/-- A call keeps the invariant, if it respects the lock. -/
theorem LockInvariant.call (hbefore : LockInvariant m past e.before) {i : ι} {op : Op}
    {res : op.Res} (hcall : e.call = some (i, ⟨op, res⟩))
    (hserved : op.Answers e.before res e.after)
    (hop : op.LeavesLock m) (hrespects : RespectsLock m past e) :
    LockInvariant m (e :: past) e.after where
  outstanding item hitem := by
    have hfrees : ¬ Frees m e := by
      rintro ⟨j, hfrees⟩
      rw [hcall] at hfrees
      cases hfrees
      have heffect : (Op.deleteItem (lockKey m)).effect e.before = some e.after := hserved
      cases hworld : e.after
      rw [hworld] at heffect hitem
      cases heffect
      rw [Table.get_delete_self] at hitem
      cases hitem
    rcases hop.lock_cases hserved with hsame | ⟨createdAt, now, rfl, -, hstored⟩ | ⟨-, hnone⟩
    · obtain ⟨q, hq, hsince⟩ := hbefore.outstanding item (hsame ▸ hitem)
      exact ⟨q, hq, hfrees, Or.inr hsince⟩
    · rw [hstored] at hitem
      cases hitem
      exact ⟨_, rfl, hfrees, Or.inl ⟨i, _, _, res, hcall, rfl, hstored⟩⟩
    · rw [hnone] at hitem
      cases hitem
  stored h hholder := by
    rcases holderOf_cons hholder with ⟨now, hacquired⟩ | ⟨hpast, hkept⟩
    · obtain ⟨item, hput, hkey, hdeadline⟩ := acquired_eq_some hacquired
      rw [hcall] at hput
      cases hput
      obtain ⟨-, hstored⟩ := get_of_put hkey hserved
      obtain ⟨createdAt, reading, rfl, -⟩ := lockItem_of_leavesLock hop hkey
      exact ⟨_, _, hstored, rfl, hdeadline.ge⟩
    · obtain ⟨item, q, hitem, hq, hle⟩ := hbefore.stored h hpast
      rcases hop.lock_cases hserved with hsame | ⟨createdAt, now, -, hholds, hstored⟩ | ⟨rfl, -⟩
      · exact ⟨item, q, hsame.trans hitem, hq, hle⟩
      · rw [hitem] at hholds
        simp only [Condition.holds, hq, decide_eq_true_eq] at hholds
        have hlater : (now : ℚ) ≤ ((now + 300 : ℤ) : ℚ) := by
          exact_mod_cast (by omega : now ≤ now + 300)
        exact ⟨_, _, hstored, rfl, hle.trans (hholds.le.trans hlater)⟩
      · have hreleased : ∀ j, j = i → releasedBy m j e = true := by
          rintro j rfl
          simp [releasedBy, hcall]
        have hown := hrespects.release _ hcall (hreleased i rfl) h hpast
        rw [hreleased _ hown] at hkept
        cases hkept

variable {S T : System ι Op Op.Res Unit World}

/-- The invariant holds after every history that respects the lock. -/
theorem lockInvariant (h : History Op.Answers (KeepsRecord (lockKey m)) S es T)
    (hfree : S.state.table.get (lockKey m) = none)
    (hleaves : ∀ e ∈ es, ∀ c ∈ e.call, c.2.1.LeavesLock m)
    (hrespects : Throughout (RespectsLock m) es) : LockInvariant m es T.state := by
  induction h with
  | nil =>
    refine ⟨fun item hitem => ?_, fun h hholder => nomatch hholder⟩
    rw [hfree] at hitem
    cases hitem
  | call h hi hr ih =>
    obtain ⟨hhead, htail⟩ := List.forall_mem_cons.mp hleaves
    exact (ih htail hrespects.2).call (e := ⟨some (_, ⟨_, _⟩), _, _⟩) rfl hr (hhead _ rfl)
      hrespects.1
  | env h hs ih =>
    exact (ih (List.forall_mem_cons.mp hleaves).2 hrespects.2).env (e := ⟨none, _, _⟩) rfl hs

end Holding

/-- The message for a node of a group of two. -/
def nodeMessage (reservationId : String) (nodeIndex : ℚ) : Attributes :=
  .ofList [("reservation_id", .text reservationId), ("user_id", .text "ada"),
    ("gpu_count", .number 1), ("gpu_type", .text "a100"), ("is_multinode", .flag true),
    ("master_reservation_id", .text "m1"), ("node_index", .number nodeIndex),
    ("total_nodes", .number 2)]

/-- The messages for two nodes; that for the first is delivered twice. -/
def nodeDelivery : Fin 3 → Invocation
  | 0 => .message (nodeMessage "n1" 0)
  | 1 => .message (nodeMessage "n2" 1)
  | 2 => .message (nodeMessage "n1" 0)

/-- An empty table, and the messages for two nodes. -/
def beforeCoordination : System (Fin 3) Op Op.Res Unit World :=
  ⟨⟨∅, ∅, [], ∅⟩, fun i => (nodeDelivery i).program .usual⟩

/-- Both records are written, and the first message acquires the lock. -/
def acquiredByFirst : List (Turn (Fin 3) World) :=
  List.replicate 4 (.call 0) ++ List.replicate 4 (.call 1) ++ List.replicate 4 (.call 0)

/-- All three messages find both nodes ready. The first acquires the lock, the second is refused
and deletes it, and the third acquires it while the first still coordinates. -/
def acquiredTwice : List (Turn (Fin 3) World) :=
  List.replicate 4 (.call 0) ++ List.replicate 4 (.call 1) ++ List.replicate 4 (.call 2) ++
    [.call 0, .call 1, .call 2] ++ List.replicate 3 (.call 0) ++ List.replicate 4 (.call 1) ++
    List.replicate 3 (.call 2)

/-- Without a node that has room, the first message queues all records that it is shown. -/
def queuedAlong : List (Turn (Fin 3) World) :=
  List.replicate 4 (.call 0) ++ List.replicate 4 (.call 1) ++ List.replicate 30 (.call 0)

/-- A record is updated. -/
def updates (r : String) {ι : Type} (e : Occurrence ι) : Bool :=
  match e.call with
  | some (_, ⟨.updateItem id _, _⟩) => id = r
  | _ => false

end CiInfra.GpuDev
