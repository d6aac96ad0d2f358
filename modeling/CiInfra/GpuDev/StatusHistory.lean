import CiInfra.GpuDev.EndedReservations
import CiInfra.GpuDev.SenderReach

/-!
# The status history of a reservation

`append_status_history` appends an entry to a list in the record of the reservation, and sets the
list to the new entry alone if the append raises. Whatever puts the record of a reservation again
puts it without the list. When does the history only grow?
-/

namespace CiInfra.GpuDev

open Interaction Program Fallible

/-- The entries of the status history in a record. -/
def Attributes.statusHistory (item : Attributes) : List Value :=
  match item "status_history" with
  | some (.list entries) => entries
  | _ => []

/-- The entries of the status history of a reservation. -/
def World.statusHistory (w : World) (r : String) : List Value :=
  ((w.table.get r).map Attributes.statusHistory).getD []

/-! ### What runs -/

/-- A message that is handled, or something else that is invoked or runs in the background. -/
inductive Activity
  | handles (minVersion : String) (message : Attributes)
  | runs (inv : Invocation)

/-- The program of an activity. -/
def Activity.program (cfg : Settings) : Activity → Program Op Op.Res Unit
  | handles minVersion message => toItsEnd (handleMessage cfg minVersion message)
  | runs inv => inv.program cfg

/-- The call deletes no record of a reservation. -/
def Op.DeletesNoReservation : Op → Prop
  | deleteItem id => isReservationKey id = false
  | _ => True

instance : AllowsQuiet Op.DeletesNoReservation where
  quiet op h := by cases op <;> first | cases h; done | trivial

instance {r : String} : Covers r Op.DeletesNoReservation where
  quiet := AllowsQuiet.quiet
  update _ _ := trivial

theorem Op.IsLawful.deletesNoReservation {op : Op} (h : op.IsLawful) :
    op.DeletesNoReservation := by
  cases op with
  | deleteItem id => exact h
  | _ => trivial

/-- What a handler may do with a reservation that it has found deletes none. -/
theorem allows_deletesNoReservation (item : Attributes) :
    Allows Op.DeletesNoReservation item where
  aside op h := by
    cases op with
    | deleteItem id => cases h
    | _ => trivial
  record _ := trivial
  pod op h := by
    cases op with
    | deleteItem id => cases h
    | _ => trivial
  disk op h := by
    cases op with
    | deleteItem id => cases h
    | _ => trivial

section Handlers

variable {P : Op → Prop} [AllowsQuiet P] {message : Attributes}

omit [AllowsQuiet P] in
theorem issues_lookUpField (name : String) : (lookUpField message name).Issues P := by
  unfold lookUpField
  split <;> trivial

theorem issues_writeOperationResult (status error : String) :
    (writeOperationResult message status error).Issues P :=
  Issues.whenever _ (Issues.logged (issues_quiet rfl))

theorem issues_lookUpReservation (r : String) (user : Option String) :
    (lookUpReservation r user).Issues P := (meets_lookUpReservation showsOnly_any r user).issues

theorem issues_onActiveReservation (fields : List String)
    {act : (podName reservationId : String) → Lambda Bool}
    (hact : ∀ item : Attributes, (act (item.text "pod_name") item.key).Issues P) :
    (onActiveReservation message fields act).Issues P := by
  unfold onActiveReservation
  split
  · trivial
  · refine Issues.orElseGive ((issues_lookUpField _).bind fun r => (issues_lookUpField _).bind
      fun user => (issues_lookUpReservation _ _).bind fun found => ?_) _
    cases found with
    | error done => trivial
    | ok item =>
      dsimp only
      split
      · trivial
      · split
        · trivial
        · split
          · trivial
          · exact hact item

theorem issues_processJupyterAction (hP : ∀ item, Allows P item) :
    (processJupyterAction message).Issues P := by
  refine issues_onActiveReservation _ fun item => ?_
  split
  · exact (hP item).issues_enableJupyterInPod
  · split
    · exact (hP item).issues_disableJupyterInPod
    · trivial

theorem issues_processAddUserAction (hP : ∀ item, Allows P item) :
    (processAddUserAction message).Issues P := by
  unfold processAddUserAction
  exact issues_onActiveReservation _ fun item => ((hP item).issues_addUserToPod _).bind fun _ =>
    ((hP item).issues_updateReservationFields _).bind fun _ => trivial

theorem issues_processExtendReservationAction (hP : ∀ item, Allows P item) :
    (processExtendReservationAction message).Issues P := by
  have huser : (lookUpUser message).Issues P := by
    unfold lookUpUser
    split
    · exact (issues_lookUpField _).bind fun _ => trivial
    · trivial
  unfold processExtendReservationAction
  split
  · trivial
  · refine Issues.orElseGive ((issues_lookUpField _).bind fun r => huser.bind fun user =>
      (issues_lookUpReservation _ _).bind fun found => ?_) _
    cases found with
    | error done => trivial
    | ok item => exact (hP item).issues_extendReservation _

theorem issues_processClearDiskLockAction : (processClearDiskLockAction message).Issues P := by
  unfold processClearDiskLockAction
  split
  · trivial
  · refine (issues_lookUpField _).bind fun user => (issues_lookUpField _).bind fun disk =>
      (issues_quiet rfl).bind fun found => ?_
    split
    · trivial
    · refine Issues.bind (issues_quiet rfl) fun _ => Issues.bind (Issues.logged
        ((issues_quiet rfl).bind fun volumes => Issues.forM fun _ _ => issues_quiet rfl))
        fun _ => trivial

theorem issues_processDeleteDiskAction : (processDeleteDiskAction message).Issues P := by
  unfold processDeleteDiskAction
  split
  · trivial
  · have htags : ∀ user disk deleteDate markedDeletedAt,
        (tagSnapshots user disk deleteDate markedDeletedAt).Issues P := fun _ _ _ _ =>
      (issues_quiet rfl).bind fun snapshots => Issues.forM fun i _ =>
        (issues_quiet rfl).bind fun _ => Issues.whenever _ (Issues.logged (issues_quiet rfl))
    refine Issues.orElseGive ((issues_quiet rfl).bind fun now => ?_) _
    exact Issues.bind (issues_quiet rfl) fun _ =>
      Issues.bind (htags _ _ _ _).logged fun _ => trivial

theorem issues_processCreateDiskAction : (processCreateDiskAction message).Issues P := by
  unfold processCreateDiskAction
  split
  · trivial
  · exact Issues.tryCatch ((issues_quiet rfl).bind fun _ =>
      (issues_writeOperationResult _ _).bind fun _ => trivial)
      fun _ => (issues_writeOperationResult _ _).bind fun _ => trivial

theorem issues_cloneSourceSnapshot (user source : String) :
    (cloneSourceSnapshot user source).Issues P := by
  refine (issues_quiet rfl).bind fun latest => ?_
  split
  · trivial
  · refine (issues_quiet rfl).bind fun volumeId => ?_
    split
    · trivial
    · exact (issues_quiet rfl).bind fun _ => (issues_quiet rfl).bind fun _ => trivial

theorem issues_processCloneDiskAction : (processCloneDiskAction message).Issues P := by
  unfold processCloneDiskAction
  split
  · trivial
  · refine Issues.tryCatch ((issues_cloneSourceSnapshot _ _).bind fun snapshot => ?_)
      fun _ => (issues_writeOperationResult _ _).bind fun _ => trivial
    cases snapshot with
    | none => exact (issues_writeOperationResult _ _).bind fun _ => trivial
    | some snapshotId =>
      exact (Issues.orElseGive (issues_quiet rfl) _).bind fun _ => (issues_quiet rfl).bind
        fun _ => (issues_writeOperationResult _ _).bind fun _ => trivial

end Handlers

section Activities

variable {cfg : Settings}

theorem lawful_processReservationRequest (message : Attributes) :
    (processReservationRequest cfg message).Issues Op.IsLawful :=
  (meets_processReservationRequest_of
    (fun _ => meets_processMultinode showsOnly_any (Op.IsLawful.coordinates _)
      fun _ _ _ h => by cases h)
    fun _ => (lawful_processSingleNodeRequest message).meets).issues

/-- A handler deletes no record of a reservation. -/
theorem issues_handle (message : Attributes) (action : Action) :
    (action.handle cfg message).Issues Op.DeletesNoReservation := by
  have hlawful : ∀ {p : Lambda Bool}, p.Issues Op.IsLawful → p.Issues Op.DeletesNoReservation :=
    fun hp => hp.mono fun _ h => h.deletesNoReservation
  cases action with
  | cancellation => exact hlawful (issues_processCancellationRequest message)
  | jupyter => exact issues_processJupyterAction allows_deletesNoReservation
  | addUser => exact issues_processAddUserAction allows_deletesNoReservation
  | extendReservation => exact issues_processExtendReservationAction allows_deletesNoReservation
  | clearDiskLock => exact issues_processClearDiskLockAction
  | deleteDisk => exact issues_processDeleteDiskAction
  | createDisk => exact issues_processCreateDiskAction
  | cloneDisk => exact issues_processCloneDiskAction
  | multinodeIndividual =>
    exact hlawful (meets_processMultinodeIndividualNode showsOnly_any
      (Op.IsLawful.coordinates "") trivial _ _ _).issues
  | reservation =>
    change Issues Op.DeletesNoReservation (if isPlainRequest message then
      handleReservationMessage cfg message else processReservationRequest cfg message)
    split
    · exact hlawful (lawful_handleReservationMessage message)
    · exact hlawful (lawful_processReservationRequest message)

theorem issues_handleMessage_deletes (minVersion : String) (message : Attributes) :
    (handleMessage cfg minVersion message).Issues Op.DeletesNoReservation := by
  refine Issues.orElseGive ?_ _
  split
  · exact (issues_writeOperationResult _ _).bind fun _ =>
      (Issues.whenever _ (issues_updateReservationStatus (by decide) _ _)).bind fun _ => trivial
  · exact issues_handle _ _

theorem Activity.deletesNoReservation (activity : Activity) :
    (activity.program cfg).OnlyCalls Op.DeletesNoReservation := by
  cases activity with
  | handles minVersion message => exact onlyCalls_toItsEnd (issues_handleMessage_deletes _ _)
  | runs inv => exact (inv.lawful cfg).mono fun _ h => h.deletesNoReservation

end Activities

/-! ### What a call does to the history -/

/-- The call may put other entries in the place of the history: it sets the attribute, as
`append_status_history` does when its append has raised, or it puts the whole record. -/
def Op.replacesHistory (r : String) : Op → Bool
  | updateItem id (.set fields) => id = r && fields.any fun f => f.1 = "status_history"
  | putItem item _ => item.key = r
  | _ => false

/-- The call, if it goes through, replaces a history that has entries. -/
def replacesEntries {ι : Type} (r : String) (e : Occurrence ι) : Bool :=
  match e.call with
  | some (_, ⟨op, _⟩) =>
    op.replacesHistory r && (op.effect e.before).isSome && !(e.before.statusHistory r).isEmpty
  | none => false

/-- The number of entries that are added to the history. -/
def entriesAdded {ι : Type} (r : String) (e : Occurrence ι) : ℕ :=
  (e.after.statusHistory r).length - (e.before.statusHistory r).length

/-- The calls of one activity, the earliest first. -/
def occurrencesOf {ι : Type} [DecidableEq ι] (i : ι) (es : List (Occurrence ι)) :
    List (Occurrence ι) :=
  (es.filter fun e => (e.callOf i).isSome).reverse

/-- Whatever calls of an activity are a run of `append_status_history`, as far as it has come, they
add at most one entry. -/
def AppendsOnce {ι : Type} [DecidableEq ι] (r : String) (es : List (Occurrence ι)) : Prop :=
  ∀ i before call after timestamp message rest, occurrencesOf i es = before ++ call ++ after →
    Trace (appendStatusHistory r timestamp message).run (call.filterMap (Happening.callOf i)) rest →
      (call.map (entriesAdded r)).sum ≤ 1

theorem Attributes.statusHistory_congr {item item' : Attributes}
    (h : item' "status_history" = item "status_history") :
    item'.statusHistory = item.statusHistory := by rw [statusHistory, statusHistory, h]

theorem World.statusHistory_congr {w w' : World} {r : String}
    (h : w'.table.get r = w.table.get r) : w'.statusHistory r = w.statusHistory r := by
  rw [statusHistory, statusHistory, h]

/-- An update that goes through adds an entry at the end if it is an append to the history, and
leaves the history as it is if it does not set it. -/
theorem Update.statusHistory_apply {u : Update} {item item' : Attributes}
    (h : u.apply item = some item') : item'.statusHistory = item.statusHistory ∨
      (∃ entry, u = .append "status_history" entry ∧
        item'.statusHistory = item.statusHistory ++ [entry]) ∨
      ∃ fields, u = .set fields ∧ fields.any (fun f => f.1 = "status_history") = true := by
  cases u with
  | set fields =>
    cases h
    by_cases hsets : fields.any (fun f => f.1 = "status_history") = true
    · exact .inr (.inr ⟨fields, rfl, hsets⟩)
    · refine .inl (Attributes.statusHistory_congr ?_)
      have hother : ∀ f ∈ fields, f.1 ≠ "status_history" := fun f hf hname =>
        hsets (List.any_eq_true.mpr ⟨f, hf, decide_eq_true hname⟩)
      rw [Attributes.overlay_apply, Attributes.ofList_eq_none hother]
      rfl
  | append name v =>
    by_cases hname : name = "status_history"
    · subst hname
      refine .inr (.inl ⟨v, rfl, ?_⟩)
      simp only [apply] at h
      unfold Attributes.statusHistory
      split at h
      · cases h
        rw [‹item "status_history" = none›, Attributes.set, Function.update_self]
        rfl
      · cases h
        rw [‹item "status_history" = _›, Attributes.set, Function.update_self]
      · cases h
    · refine .inl (Attributes.statusHistory_congr ?_)
      simp only [apply] at h
      split at h <;> cases h
      · exact Attributes.set_of_ne _ (Ne.symm hname) _
      · exact Attributes.set_of_ne _ (Ne.symm hname) _

/-- The fresh record that an update creates has no history. -/
theorem Table.statusHistory_getD (t : Table) (r : String) :
    ((t.get r).getD (.ofList [("reservation_id", .text r)])).statusHistory =
      ((t.get r).map Attributes.statusHistory).getD [] := by
  cases t.get r with
  | none => rfl
  | some item => rfl

/-- What a call that goes through makes of the history of a reservation: it leaves it as it is, adds
one entry at its end, or replaces it. -/
theorem Op.statusHistory_effect {op : Op} {w w' : World} {r : String}
    (hop : op.DeletesNoReservation) (hr : isReservationKey r = true) (h : op.effect w = some w') :
    w'.statusHistory r = w.statusHistory r ∨
      (∃ entry, op = .updateItem r (.append "status_history" entry) ∧
        w'.statusHistory r = w.statusHistory r ++ [entry]) ∨
      op.replacesHistory r = true := by
  have hsame : ∀ {w w' : World}, w'.table = w.table → w'.statusHistory r = w.statusHistory r :=
    fun h => World.statusHistory_congr (by rw [h])
  cases op with
  | updateItem id u =>
    obtain ⟨t', ht, rfl⟩ := World.withTable_eq_some h
    obtain ⟨item, hitem, rfl⟩ := Table.update_eq_some ht
    by_cases hid : id = r
    · subst hid
      have hstored : World.statusHistory { w with table := w.table.store id item } id =
          item.statusHistory := by
        rw [World.statusHistory, Table.get_store_self]
        rfl
      have happly := Update.statusHistory_apply hitem
      rw [Table.statusHistory_getD] at happly
      rw [hstored]
      rcases happly with hkeeps | ⟨entry, rfl, hentry⟩ | ⟨fields, rfl, hsets⟩
      · exact .inl hkeeps
      · exact .inr (.inl ⟨entry, rfl, hentry⟩)
      · refine .inr (.inr ?_)
        rw [replacesHistory, hsets, Bool.and_true]
        exact decide_eq_true rfl
    · exact .inl (World.statusHistory_congr (Table.get_store_of_ne _ (Ne.symm hid) _))
  | putItem item condition =>
    obtain ⟨t', ht, rfl⟩ := World.withTable_eq_some h
    obtain ⟨-, rfl⟩ := Table.put_eq_some ht
    by_cases hkey : item.key = r
    · exact .inr (.inr (decide_eq_true hkey))
    · exact .inl (World.statusHistory_congr (Table.get_store_of_ne _ (Ne.symm hkey) _))
  | deleteItem id =>
    obtain ⟨t', ht, rfl⟩ := World.withTable_eq_some h
    cases ht
    have hid : r ≠ id := by
      rintro rfl
      have hlock : isReservationKey r = false := hop
      rw [hr] at hlock
      cases hlock
    exact .inl (World.statusHistory_congr (Table.get_delete_of_ne _ hid))
  | createPod name p =>
    obtain ⟨-, rfl⟩ := World.createPod_eq_some h
    exact .inl (hsame rfl)
  | patchPod name labels annotations =>
    obtain ⟨p, -, rfl⟩ := World.modifyPod_eq_some h
    exact .inl (hsame rfl)
  | deletePod name =>
    obtain ⟨p, -, rfl⟩ := World.modifyPod_eq_some h
    exact .inl (hsame rfl)
  | _ =>
    cases h
    exact .inl (hsame rfl)

/-! ### Runs -/

section Runs

variable {cfg : Settings} {ι : Type} [DecidableEq ι] {activities : ι → Activity} {w : World}
  {T : System ι Op Op.Res Unit World} {r : String} {es : List (Occurrence ι)}

/-- What happens in a run adds entries at the end of the history only, unless it replaces
entries. -/
theorem isPrefix_statusHistory {e : Occurrence ι}
    (h : History Op.Answers KeepsTable ⟨w, fun i => (activities i).program cfg⟩ es T)
    (hr : isReservationKey r = true) (he : e ∈ es) (horderly : replacesEntries r e = false) :
    e.before.statusHistory r <+: e.after.statusHistory r := by
  cases hcall : e.call with
  | none =>
    have htable : e.after.table = e.before.table := h.changed he hcall
    rw [World.statusHistory_congr (by rw [htable])]
  | some c =>
    obtain ⟨i, op, res⟩ := c
    have hop := h.calls (fun i => (activities i).deletesNoReservation) he hcall
    rcases (h.served he hcall).cases with heq | heffect
    · rw [heq]
    · rcases Op.statusHistory_effect hop hr heffect with hkeeps | ⟨entry, -, hentry⟩ | hreplaces
      · rw [hkeeps]
      · rw [hentry]
        exact List.prefix_append _ _
      · have hempty : e.before.statusHistory r = [] := by
          simpa [replacesEntries, hcall, hreplaces, heffect] using horderly
        rw [hempty]
        exact List.nil_prefix

/-- The calls of `append_status_history`: the append, and the fallback if that has raised. -/
theorem trace_appendStatusHistory {timestamp message : String} {t : List (Event Op Op.Res)}
    {rest : Program Op Op.Res (Except Failure Unit)}
    (h : Trace (appendStatusHistory r timestamp message).run t rest) :
    ∃ entry, t = [] ∨ (∃ res, t = [⟨.updateItem r (.append "status_history" entry), res⟩]) ∨
      ∃ res res', t = [⟨.updateItem r (.append "status_history" entry), res⟩,
        ⟨.updateItem r (.set [("status_history", .list [entry])]), res'⟩] := by
  refine ⟨.dict [("timestamp", .text timestamp), ("message", .text message)], ?_⟩
  cases h with
  | nil => exact .inl rfl
  | @cons _ _ t' _ res h =>
    cases res with
    | ok a =>
      cases h with
      | nil => exact .inr (.inl ⟨_, rfl⟩)
    | error e =>
      cases h with
      | nil => exact .inr (.inl ⟨_, rfl⟩)
      | cons res' h =>
        cases h with
        | nil => exact .inr (.inr ⟨_, _, rfl⟩)

theorem forall₂_callOf {i : ι} {call : List (Occurrence ι)} (h : ∀ e ∈ call, (e.callOf i).isSome) :
    List.Forall₂ (fun e c => e.call = some (i, c)) call (call.filterMap (Happening.callOf i)) := by
  induction call with
  | nil => exact .nil
  | cons e call ih =>
    rw [List.forall_mem_cons] at h
    obtain ⟨c, hc⟩ := Option.isSome_iff_exists.mp h.1
    rw [List.filterMap_cons_some hc]
    exact .cons (Happening.callOf_eq_some.mp hc) (ih h.2)

/-- Of two calls of an activity, the later one is later in the run. -/
theorem split_of_occurrencesOf {i : ι} {before after : List (Occurrence ι)} {e f : Occurrence ι}
    (h : occurrencesOf i es = before ++ [e, f] ++ after) :
    ∃ later mid earlier, es = later ++ f :: (mid ++ e :: earlier) := by
  rw [occurrencesOf, List.reverse_eq_iff] at h
  simp only [List.reverse_append, List.reverse_cons, List.nil_append, List.append_assoc,
    List.cons_append] at h
  obtain ⟨later, rest, rfl, -, hrest⟩ := List.filter_eq_append_iff.mp h
  obtain ⟨skipped, rest', rfl, -, -, hrest'⟩ := List.filter_eq_cons_iff.mp hrest
  obtain ⟨mid, earlier, rfl, -, -, -⟩ := List.filter_eq_cons_iff.mp hrest'
  exact ⟨later ++ skipped, mid, earlier, by simp⟩

theorem entriesAdded_append {e : Occurrence ι} {i : ι} {entry : Value}
    {res : (Op.updateItem r (.append "status_history" entry)).Res}
    (h : History Op.Answers KeepsTable ⟨w, fun i => (activities i).program cfg⟩ es T)
    (hr : isReservationKey r = true) (he : e ∈ es) (hcall : e.call = some (i, ⟨_, res⟩)) :
    entriesAdded r e ≤ 1 := by
  have hop : (Op.updateItem r (.append "status_history" entry)).DeletesNoReservation := trivial
  rw [entriesAdded]
  rcases (h.served he hcall).cases with heq | heffect
  · rw [heq]
    omega
  · rcases Op.statusHistory_effect hop hr heffect with hkeeps | ⟨entry', -, hentry⟩ | hfalse
    · rw [hkeeps]
      omega
    · rw [hentry, List.length_append, List.length_singleton]
      omega
    · cases hfalse

/-- The fallback leaves one entry, if it is applied. -/
theorem length_fallback {e : Occurrence ι} {i : ι} {entry : Value}
    {res : (Op.updateItem r (.set [("status_history", .list [entry])])).Res}
    (h : History Op.Answers KeepsTable ⟨w, fun i => (activities i).program cfg⟩ es T) (he : e ∈ es)
    (hcall : e.call = some (i, ⟨_, res⟩)) :
    e.after = e.before ∨ (e.after.statusHistory r).length = 1 := by
  refine (h.served he hcall).cases.imp_right fun heffect => ?_
  obtain ⟨t', ht, hafter⟩ := World.withTable_eq_some heffect
  obtain ⟨item, hitem, rfl⟩ := Table.update_eq_some ht
  cases hitem
  rw [hafter, World.statusHistory, Table.get_store_self]
  rfl

theorem appendsOnce
    (h : History Op.Answers KeepsTable ⟨w, fun i => (activities i).program cfg⟩ es T)
    (hr : isReservationKey r = true) (horderly : ∀ e ∈ es, replacesEntries r e = false) :
    AppendsOnce r es := by
  intro i before call after timestamp message rest hcalls htrace
  have hmem : ∀ e ∈ call, e ∈ es ∧ (e.callOf i).isSome := by
    intro e he
    have hcall : e ∈ occurrencesOf i es := hcalls ▸ by simp [he]
    exact List.mem_filter.mp (List.mem_reverse.mp hcall)
  have hforall := forall₂_callOf fun e he => (hmem e he).2
  obtain ⟨entry, hnone | ⟨res, hone⟩ | ⟨res, res', htwo⟩⟩ := trace_appendStatusHistory htrace
  · rw [hnone] at hforall
    cases hforall
    exact Nat.zero_le 1
  · rw [hone] at hforall
    cases hforall with
    | @cons e _ _ _ hcall hrest =>
      cases hrest
      simpa using entriesAdded_append h hr (hmem e List.mem_cons_self).1 hcall
  · rw [htwo] at hforall
    cases hforall with
    | @cons e _ _ _ hcall hrest =>
      cases hrest with
      | @cons f _ _ _ hcall' hrest =>
        cases hrest
        have he := (hmem e (by simp)).1
        have hf := (hmem f (by simp)).1
        have hfirst := entriesAdded_append h hr he hcall
        -- What the append has added is there when the fallback is made, which is orderly then only
        -- if nothing is there.
        obtain ⟨later, mid, earlier, rfl⟩ := split_of_occurrencesOf hcalls
        have hgrown : e.after.statusHistory r <+: f.before.statusHistory r := by
          obtain ⟨U, hU, hbefore⟩ := h.before
          rw [hbefore]
          refine hU.holds_since (K := fun w => e.after.statusHistory r <+: w.statusHistory r)
            List.prefix_rfl fun d hd hK => hK.trans ?_
          exact isPrefix_statusHistory h hr (by simp [hd]) (horderly d (by simp [hd]))
        have hlast := length_fallback h hf hcall'
        have hsets : (Op.updateItem r (.set [("status_history", .list [entry])])).replacesHistory
            r = true := by simp [Op.replacesHistory]
        have heffect : ((Op.updateItem r (.set [("status_history", .list [entry])])).effect
            f.before).isSome = true := rfl
        have hempty : f.before.statusHistory r = [] := by
          simpa [replacesEntries, hcall', hsets, heffect] using horderly f hf
        rw [hempty, List.prefix_nil] at hgrown
        simp only [List.map_cons, List.map_nil, List.sum_cons, List.sum_nil, entriesAdded, hempty,
          hgrown, List.length_nil]
        rcases hlast with hkeeps | hlength
        · rw [hkeeps, hempty]
          simp
        · omega

end Runs

/-! ### Two deliveries of a request -/

/-- A request for a GPU of a type without nodes, which is queued. -/
def queuedRequest : Activity := .runs (.message requestWithoutNodes)

/-- Two deliveries of it, before either has begun. -/
def deliveredTwice : System Bool Op Op.Res Unit World :=
  ⟨⟨∅, ∅, [], ∅⟩, fun _ => queuedRequest.program .usual⟩

/-- The first delivery alone. -/
def firstDelivery : List (Turn Bool World) := List.replicate 18 (.call false)

/-- The second delivery, after the first, up to its put of the record. -/
def secondDelivery : List (Turn Bool World) := firstDelivery ++ List.replicate 4 (.call true)

end CiInfra.GpuDev
