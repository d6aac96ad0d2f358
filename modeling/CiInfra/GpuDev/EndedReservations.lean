import CiInfra.GpuDev.Invocations
import CiInfra.Lib.History

/-!
# Reservations that have ended

Only the first put of a record carries a condition on the stored one. Every other status is
written on the strength of an earlier look at the record, some after minutes of other work and
some without any look. A reservation stays ended if it never ends between such a look and a
write that relies on it.
-/

namespace CiInfra.GpuDev

open Interaction

/-- Something that happened to the Lambdas: a call, or a change in the cluster. -/
abbrev Occurrence (ι : Type) := Happening ι Op Op.Res World

/-- The reservations table is left alone. -/
def KeepsTable (w w' : World) : Prop := w'.table = w.table

/-- The status that a call writes to the record of a reservation. -/
def Op.statusFor (r : String) : Op → Option Value
  | updateItem id u => if id = r then u.status else none
  | putItem item _ => if item.key = r then item "status" else none
  | _ => none

/-- The call goes through and gives the record a live status. -/
def GivesLiveStatus {ι : Type} (r : String) (e : Occurrence ι) : Prop :=
  ∃ i op res, e.call = some (i, ⟨op, res⟩) ∧ op.effect e.before = some e.after ∧
    ∃ s ∈ liveStatuses, op.statusFor r = some (.text s)

/-- Once the record of a reservation has ended, nothing gives it a live status. -/
def StaysEnded {ι : Type} (r : String) (es : List (Occurrence ι)) : Prop :=
  ∀ later e earlier, es = later ++ e :: earlier → e.before.table.hasEnded r = true →
    ∀ d ∈ later ++ [e], ¬ GivesLiveStatus r d

/-- The call writes, without a condition, what makes the record one that has not ended. -/
def Op.revives (r : String) : Op → Bool
  | updateItem id u => id = r && match u.status with
    | some (.text s) => !(["cancelled", "expired", "failed", "completed"].contains s)
    | _ => false
  | putItem item none =>
    item.key = r && !item.isOneOf "status" ["cancelled", "expired", "failed", "completed"]
  | _ => false

/-- The call reads the record, or puts it under the condition that it has not been terminated. -/
def Op.checks (r : String) : Op → Bool
  | getItem id _ => id = r
  | putItem item (some .notTerminated) => item.key = r
  | _ => false

section Windows

variable {ι : Type} [DecidableEq ι]

/-- The invocation begins, or looks at the record, and the reservation has not ended. -/
def findsOpen (r : String) (i : ι) (past : List (Occurrence ι)) (e : Occurrence ι) : Bool :=
  match e.call with
  | some (j, ⟨op, _⟩) =>
    j = i && (op.checks r || past.all fun d => (d.callOf i).isNone) && !e.before.table.hasEnded r
  | none => false

/-- The reservation ends. -/
def ends (r : String) (e : Occurrence ι) : Bool :=
  !e.before.table.hasEnded r && e.after.table.hasEnded r

/-- What is written to the record without a condition is written by an invocation since whose
last look the reservation has not ended. -/
def writesInTime (r : String) (past : List (Occurrence ι)) (e : Occurrence ι) : Prop :=
  ∀ c ∈ e.call, c.2.1.revives r = true →
    LookedSince (fun past e => findsOpen r c.1 past e = true) (fun e => ends r e = true) past

instance (r : String) (past : List (Occurrence ι)) (e : Occurrence ι) :
    Decidable (writesInTime r past e) :=
  inferInstanceAs (Decidable (∀ c ∈ e.call, _))

end Windows

/-! ### What a write does to a record that has ended -/

/-- An update that goes through gives the record the status that it writes. -/
theorem Update.apply_writes {u : Update} {item item' : Attributes} {s : String}
    (h : u.apply item = some item') (hs : u.status = some (.text s)) :
    item' "status" = some (.text s) := by
  cases u with
  | set fields => exact Update.apply_status h hs
  | append name v =>
    simp only [status] at hs
    split at hs <;> cases hs

theorem Attributes.hasEnded_congr {item item' : Attributes}
    (hstatus : item' "status" = item "status")
    (hmark : item' "cancelled_at" = item "cancelled_at") : item'.hasEnded = item.hasEnded := by
  simp only [hasEnded, truthy, isOneOf, hstatus, hmark]

/-- A lawful update of a record that has ended leaves it so, or it revives it. -/
theorem Update.hasEnded_apply {u : Update} {item item' : Attributes} {r : String}
    (hu : u.IsLawful) (h : u.apply item = some item') (hended : item.hasEnded = true)
    (hrevives : (Op.updateItem r u).revives r = false) : item'.hasEnded = true := by
  rcases hu.status with hneutral | ⟨s, -, hs⟩
  · obtain ⟨hstatus, hmark⟩ := u.apply_neutral h hneutral
    rw [Attributes.hasEnded_congr hstatus hmark, hended]
  · have hterminal : s ∈ ["cancelled", "expired", "failed", "completed"] := by
      simp only [Op.revives, hs, decide_true, Bool.true_and, Bool.not_eq_false',
        List.contains_iff_mem] at hrevives
      exact hrevives
    simp [Attributes.hasEnded, Attributes.isOneOf, Update.apply_writes h hs, hterminal]

/-- A write is applied, or it changes nothing. -/
theorem Op.AnswersWrite.cases {op : Op} {w w' : World} {res : Except Failure Unit}
    (h : op.AnswersWrite w res w') : w' = w ∨ op.effect w = some w' := by
  cases res with
  | ok _ => exact Or.inr h
  | error _ => exact h

/-- What a call leaves: what it found, or what it makes of it when it goes through. -/
theorem Op.Answers.cases {op : Op} {w w' : World} {res : op.Res} (h : op.Answers w res w') :
    w' = w ∨ op.effect w = some w' := by
  cases hquiet : op.IsQuiet with
  | true => exact Or.inl (Op.eq_of_isQuiet h hquiet)
  | false => cases op <;> first | cases hquiet; done | exact Op.AnswersWrite.cases h

namespace Table

theorem exists_of_hasEnded {t : Table} {r : String} (h : t.hasEnded r = true) :
    ∃ item, t.get r = some item ∧ item.hasEnded = true := by
  unfold hasEnded at h
  cases hitem : t.get r with
  | none => simp [hitem] at h
  | some item => exact ⟨item, rfl, by simpa [hitem] using h⟩

theorem hasEnded_congr {t t' : Table} {r : String} (h : t'.get r = t.get r) :
    t'.hasEnded r = t.hasEnded r := by rw [hasEnded, hasEnded, h]

/-- An update keeps a record ended unless it revives it. -/
theorem hasEnded_update {t t' : Table} {r id : String} {u : Update} (hu : u.IsLawful)
    (h : t.update id u = some t') (hended : t.hasEnded r = true)
    (hrevives : (Op.updateItem id u).revives r = false) : t'.hasEnded r = true := by
  obtain ⟨item', happly, rfl⟩ := update_eq_some h
  by_cases hid : id = r
  · subst hid
    obtain ⟨item, hitem, hitemEnded⟩ := exists_of_hasEnded hended
    rw [hitem] at happly
    simpa [hasEnded] using u.hasEnded_apply hu happly hitemEnded hrevives
  · rw [hasEnded_congr (get_store_of_ne t (Ne.symm hid) item'), hended]

/-- A put keeps a record ended, if its condition is that of a record or it does not revive. -/
theorem hasEnded_put {t t' : Table} {r : String} {item : Attributes} {condition : Option Condition}
    (hlock : ∀ now, condition = some (.lockFree now) → item.key ≠ r)
    (h : t.put item condition = some t') (hended : t.hasEnded r = true)
    (hrevives : (Op.putItem item condition).revives r = false) : t'.hasEnded r = true := by
  obtain ⟨hholds, rfl⟩ := put_eq_some h
  by_cases hkey : item.key = r
  · cases condition with
    | none =>
      have hstatus :
          item.isOneOf "status" ["cancelled", "expired", "failed", "completed"] = true := by
        simpa [Op.revives, hkey] using hrevives
      simp [hasEnded, hkey, Attributes.hasEnded, hstatus]
    | some condition =>
      cases condition with
      | lockFree now => exact (hlock now rfl hkey).elim
      | notTerminated =>
        obtain ⟨old, hold, holdEnded⟩ := exists_of_hasEnded hended
        rw [hkey, hold] at hholds
        have hopen := Condition.isTerminated_of_holds (by simpa using hholds)
        rw [Attributes.isTerminated_of_hasEnded holdEnded] at hopen
        cases hopen
  · rw [hasEnded_congr (get_store_of_ne t (Ne.symm hkey) item), hended]

end Table

/-- A lawful call that goes through keeps a record ended unless it revives it. -/
theorem Op.IsLawful.hasEnded_effect {op : Op} {w w' : World} {r : String} (hop : op.IsLawful)
    (hr : isReservationKey r = true) (h : op.effect w = some w')
    (hended : w.table.hasEnded r = true) (hrevives : op.revives r = false) :
    w'.table.hasEnded r = true := by
  have hlock : ∀ {id : String}, isReservationKey id = false → id ≠ r := by
    rintro id hid rfl
    rw [hr] at hid
    cases hid
  cases op with
  | updateItem id u =>
    obtain ⟨t', ht, rfl⟩ := World.withTable_eq_some h
    exact Table.hasEnded_update hop ht hended hrevives
  | putItem item condition =>
    obtain ⟨t', ht, rfl⟩ := World.withTable_eq_some h
    exact Table.hasEnded_put (fun now hnow => hlock (hop now hnow)) ht hended hrevives
  | deleteItem id =>
    obtain ⟨t', ht, rfl⟩ := World.withTable_eq_some h
    cases ht
    exact (Table.hasEnded_congr (Table.get_delete_of_ne _ (hlock hop).symm)).trans hended
  | createPod name p =>
    obtain ⟨-, rfl⟩ := World.createPod_eq_some h
    exact hended
  | patchPod name labels annotations =>
    obtain ⟨p, -, rfl⟩ := World.modifyPod_eq_some h
    exact hended
  | deletePod name =>
    obtain ⟨p, -, rfl⟩ := World.modifyPod_eq_some h
    exact hended
  | _ => cases h; exact hended

/-- A put that goes through over a record that has ended has no condition. -/
theorem Table.put_over_ended {t t' : Table} {item : Attributes} {condition : Option Condition}
    (hlock : ∀ now, condition ≠ some (.lockFree now)) (h : t.put item condition = some t')
    (hended : t.hasEnded item.key = true) : condition = none := by
  obtain ⟨hholds, -⟩ := put_eq_some h
  obtain ⟨old, hold, holdEnded⟩ := exists_of_hasEnded hended
  rw [hold] at hholds
  match condition with
  | none => rfl
  | some (.lockFree now) => exact (hlock now rfl).elim
  | some .notTerminated =>
    have hopen := Condition.isTerminated_of_holds (by simpa using hholds)
    rw [Attributes.isTerminated_of_hasEnded holdEnded] at hopen
    cases hopen

/-- A lawful call that gives a record that has ended a live status revives it. -/
theorem Op.IsLawful.revives_of_live {op : Op} {w w' : World} {r s : String} (hop : op.IsLawful)
    (hr : isReservationKey r = true) (h : op.effect w = some w')
    (hended : w.table.hasEnded r = true) (hs : s ∈ liveStatuses)
    (hstatus : op.statusFor r = some (.text s)) : op.revives r = true := by
  have hlive : s ∉ ["cancelled", "expired", "failed", "completed"] := by
    simp only [liveStatuses, List.mem_cons, List.not_mem_nil, or_false] at hs
    obtain rfl | rfl | rfl | rfl := hs <;> decide
  cases op with
  | updateItem id u =>
    simp only [statusFor] at hstatus
    split at hstatus
    · simp [revives, *]
    · cases hstatus
  | putItem item condition =>
    simp only [statusFor] at hstatus
    split at hstatus
    · obtain rfl : item.key = r := ‹_›
      obtain ⟨t', ht, rfl⟩ := World.withTable_eq_some h
      obtain rfl : condition = none := Table.put_over_ended (fun now hnow => by
        have hkey := hop now hnow
        rw [hr] at hkey
        cases hkey) ht hended
      simp [revives, Attributes.isOneOf, hstatus, hlive]
    · cases hstatus
  | _ => cases hstatus

/-! ### Every run -/

/-- While the reservation has not ended since it was last found open, it has not ended. -/
theorem open_of_lookedSince {ι : Type} [DecidableEq ι] {S T : System ι Op Op.Res Unit World}
    {es : List (Occurrence ι)} {r : String} {i : ι}
    (h : History Op.Answers KeepsTable S es T)
    (hsince :
      LookedSince (fun past e => findsOpen r i past e = true) (fun e => ends r e = true) es) :
    T.state.table.hasEnded r = false := by
  have hstep : ∀ e : Occurrence ι, ¬ ends r e = true → e.before.table.hasEnded r = false →
      e.after.table.hasEnded r = false := by
    intro e he hopen
    simpa [ends, hopen] using he
  refine LookedSince.holds (K := fun w => w.table.hasEnded r = false) h
    (fun past e _ hlook htouch => hstep e htouch ?_) (fun e _ htouch => hstep e htouch) hsince
  unfold findsOpen at hlook
  split at hlook
  · simp only [Bool.and_eq_true, Bool.not_eq_true'] at hlook
    exact hlook.2
  · cases hlook

section Runs

variable {cfg : Settings} {ι : Type} [DecidableEq ι] {inv : ι → Invocation} {w : World}
  {T : System ι Op Op.Res Unit World} {r : String}

/-- A call in time finds the reservation open if it revives it. -/
theorem not_revives_of_hasEnded {later earlier : List (Occurrence ι)} {e : Occurrence ι}
    (h : History Op.Answers KeepsTable ⟨w, fun i => (inv i).program cfg⟩ (later ++ e :: earlier) T)
    (hwindow : writesInTime r earlier e) (hended : e.before.table.hasEnded r = true) {i : ι}
    {op : Op} {res : op.Res} (hcall : e.call = some (i, ⟨op, res⟩)) : op.revives r = false := by
  obtain ⟨U, hU, hbefore⟩ := h.before
  by_contra hrevives
  have hopen := open_of_lookedSince hU (hwindow _ hcall (by simpa using hrevives))
  rw [← hbefore, hended] at hopen
  cases hopen

/-- Nothing makes a record that has ended one that has not, if all writes are in time. -/
theorem hasEnded_after {later earlier : List (Occurrence ι)} {e : Occurrence ι}
    (h : History Op.Answers KeepsTable ⟨w, fun i => (inv i).program cfg⟩ (later ++ e :: earlier) T)
    (hr : isReservationKey r = true) (hwindow : writesInTime r earlier e)
    (hended : e.before.table.hasEnded r = true) : e.after.table.hasEnded r = true := by
  have hmem : e ∈ later ++ e :: earlier := by simp
  cases hcall : e.call with
  | none => exact (h.changed hmem hcall : KeepsTable _ _) ▸ hended
  | some c =>
    obtain ⟨i, op, res⟩ := c
    have hlawful := h.calls (fun i => (inv i).lawful cfg) hmem hcall
    rcases (h.served hmem hcall).cases with heq | heffect
    · exact heq ▸ hended
    · exact hlawful.hasEnded_effect hr heffect hended
        (not_revives_of_hasEnded h hwindow hended hcall)

end Runs

/-! ### A cancellation between two steps of a request -/

/-- A write was answered as one that went through. -/
def Op.wentThrough : (op : Op) → op.Res → Bool
  | putItem _ _, res => Except.isOk res
  | updateItem _ _, res => Except.isOk res
  | deleteItem _, res => Except.isOk res
  | createPod _ _, res => Except.isOk res
  | patchPod _ _ _, res => Except.isOk res
  | deletePod _, res => Except.isOk res
  | createVolume _ _, res => Except.isOk res
  | _, _ => true

theorem Op.AnswersWrite.effect_of_isOk {op : Op} {w w' : World} {res : Except Failure Unit}
    (h : op.AnswersWrite w res w') (hok : Except.isOk res = true) : op.effect w = some w' := by
  cases res with
  | ok _ => exact h
  | error _ => cases hok

theorem Op.effect_of_wentThrough {op : Op} {w w' : World} {res : op.Res}
    (h : op.Answers w res w') (hok : op.wentThrough res = true) : op.effect w = some w' := by
  cases hquiet : op.IsQuiet with
  | true =>
    obtain rfl := Op.eq_of_isQuiet h hquiet
    cases op <;> first | rfl | cases hquiet
  | false =>
    cases op <;> first | cases hquiet; done | exact Op.AnswersWrite.effect_of_isOk h hok

/-- The call is answered as gone through, and writes a live status to the record. -/
def writesLiveStatus {ι : Type} (r : String) (e : Occurrence ι) : Bool :=
  match e.call with
  | some (_, ⟨op, res⟩) => op.wentThrough res && match op.statusFor r with
    | some (.text s) => liveStatuses.contains s
    | _ => false
  | none => false

theorem givesLiveStatus_of_writes {ι : Type} {S T : System ι Op Op.Res Unit World} [DecidableEq ι]
    {es : List (Occurrence ι)} {e : Occurrence ι} {r : String}
    (h : History Op.Answers KeepsTable S es T) (he : e ∈ es) (hlive : writesLiveStatus r e = true) :
    GivesLiveStatus r e := by
  unfold writesLiveStatus at hlive
  split at hlive
  · rename_i i op res hcall
    rw [Bool.and_eq_true] at hlive
    obtain ⟨hok, hlive⟩ := hlive
    split at hlive
    · exact ⟨i, op, res, hcall, Op.effect_of_wentThrough (h.served he hcall) hok, _,
        by simpa using hlive, ‹_›⟩
    · cases hlive
  · cases hlive

/-- A request for a GPU of a type without nodes. -/
def requestWithoutNodes : Attributes := .ofList
  [("reservation_id", .text "6f1d3c52-9a0b-4c7e-8d25-1b7e0a4f9c33"), ("user_id", .text "mira"),
    ("gpu_count", .number 1), ("gpu_type", .text "a100")]

/-- The request and its cancellation. -/
def requestAndCancellation : Bool → Invocation
  | false => .message requestWithoutNodes
  | true => .cancellation requestWithoutNodes

/-- The request and its cancellation before either has begun. -/
def beforeRequest : System Bool Op Op.Res Unit World :=
  ⟨⟨∅, ∅, [], ∅⟩, fun i => (requestAndCancellation i).program .usual⟩

/-- The request is cancelled after it has been queued. -/
def cancelledLater : List (Turn Bool World) :=
  List.replicate 24 (.call false) ++ List.replicate 8 (.call true)

/-- The request is cancelled between its first record and its place in the queue. -/
def cancelledMeanwhile : List (Turn Bool World) :=
  List.replicate 4 (.call false) ++ List.replicate 5 (.call true) ++ List.replicate 13 (.call false)

end CiInfra.GpuDev
