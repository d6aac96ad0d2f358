import CiInfra.GpuDev.ExpirySafety

/-!
# Extensions

An extension reads the expiry of a reservation, and writes a later one and a longer duration, from
which an activation sets the expiry anew. None of these writes has a condition, and no message is
remembered. Extensions are granted exactly and in full as long as what a write follows from has not
changed since it was read, and a message that has extended a reservation finds it no more.
-/

namespace CiInfra.GpuDev.Lifecycle

open Interaction Fallible

namespace World

/-- When a reservation expires. -/
def expiry (w : World) (r : String) : Option ℚ :=
  ((w.records.lookup r).bind Record.expiresAt).bind Stamp.time?

/-- When a reservation became active. -/
def launch (w : World) (r : String) : Option ℚ :=
  ((w.records.lookup r).bind Record.launchedAt).bind Stamp.time?

/-- The hours that a reservation is to last. -/
def duration (w : World) (r : String) : Option ℚ := (w.records.lookup r).bind Record.durationHours

end World

/-- The hours for which a message asks. -/
def ExtendMessage.hours? (m : ExtendMessage) : Option ℚ := m.hours.bind Hours.float?

/-- The message that a run handles, if it asks for an extension. -/
def Job.message? : Job → Option ExtendMessage
  | extend m => some m
  | _ => none

/-- The run handles a delivery of the message. -/
def Job.delivers (messageId : String) (job : Job) : Bool :=
  job.message?.any (·.messageId = messageId)

/-- An update of a record that has been applied, and the run that made it. -/
structure Applied (ι : Type) where
  run : ι
  reservation : String
  change : Change

/-- The update that is applied, also where an error is returned for it. -/
def applied {ι : Type} (e : Occurrence ι) : Option (Applied ι) :=
  match e.call with
  | some (i, ⟨.update r change, _⟩) =>
    if e.after.records.lookup r = some (change.apply (e.before.recordOf r)) then
      some ⟨i, r, change⟩
    else none
  | _ => none

/-- The run that writes an extension, and the reservation that it extends. -/
def extendedAt {ι : Type} (e : Occurrence ι) : Option (ι × String) :=
  match applied e with
  | some ⟨i, r, .extended _ _⟩ => some (i, r)
  | _ => none

/-- The run that writes an activation, and the reservation that becomes active. -/
def activatedAt {ι : Type} (e : Occurrence ι) : Option (ι × String) :=
  match applied e with
  | some ⟨i, r, .activated _ _ _⟩ => some (i, r)
  | _ => none

section Properties

variable {ι : Type} (job : ι → Job)

/-- An extension that is written moves the expiry forward by the hours of its message, which has
not extended the reservation before, and no further than 48 hours after the launch. -/
def extendsOnce (past : List (Occurrence ι)) (e : Occurrence ι) : Prop :=
  ∀ x ∈ extendedAt e, ∃ m ∈ (job x.1).message?,
    (∃ hours ∈ m.hours?, 0 < hours ∧ ∃ t ∈ e.before.expiry x.2,
      e.after.expiry x.2 = some (t + hours * 3600)) ∧
    (∀ d ∈ past, ∀ y ∈ extendedAt d, y.2 = x.2 → (job y.1).delivers m.messageId = false) ∧
    ∀ t ∈ e.after.expiry x.2, ∀ l ∈ e.after.launch x.2, (t - l) / 3600 ≤ maxTotalHours

/-- The hours by which a reservation is extended. -/
def extendedBy (r : String) (e : Occurrence ι) : ℚ :=
  match extendedAt e with
  | some (i, s) => if s = r then ((job i).message?.bind ExtendMessage.hours?).getD 0 else 0
  | none => 0

/-- An activation grants what the reservation was to last before any extension of it, and all that
it has been extended by from then on, which is no more than 48 hours. -/
def activatesInFull (past : List (Occurrence ι)) (e : Occurrence ι) : Prop :=
  ∀ x ∈ activatedAt e, ∀ later d earlier, past = later ++ d :: earlier →
    (∃ y ∈ extendedAt d, y.2 = x.2) →
    ∃ l ∈ e.after.launch x.2, ∃ hours ∈ d.before.duration x.2,
      e.after.expiry x.2 =
        some (l + (hours + ((later ++ [d]).map (extendedBy job x.2)).sum) * 3600) ∧
      hours + ((later ++ [d]).map (extendedBy job x.2)).sum ≤ maxTotalHours

/-- Extensions are bounded and applied once, and none is lost. -/
def grantsExtensions (past : List (Occurrence ι)) (e : Occurrence ι) : Prop :=
  extendsOnce job past e ∧ activatesInFull job past e

end Properties

/-! ### What must not happen in between -/

/-- The items of a reservation that a call shows. -/
def Op.shows (r : String) : (op : Op) → op.Res → List Record
  | getItem id, .ok (some x) => if id = r ∨ x.id = r then [x] else []
  | startingWith _ _, .ok xs => xs.filter (·.id = r)
  | _, _ => []

/-- The times of a reservation are those of the item, with a duration among them. -/
def Record.hasTimesOf (x : Record) (r : String) (w : World) : Bool :=
  match w.records.lookup r with
  | some y => y.expiresAt = x.expiresAt && y.launchedAt = x.launchedAt &&
      y.durationHours = x.durationHours && x.durationHours.isSome
  | none => false

theorem Record.hasTimesOf_iff {x : Record} {r : String} {w : World} :
    x.hasTimesOf r w = true ↔ ∃ y, w.records.lookup r = some y ∧ y.expiresAt = x.expiresAt ∧
      y.launchedAt = x.launchedAt ∧ y.durationHours = x.durationHours ∧
        x.durationHours.isSome = true := by
  unfold hasTimesOf
  cases w.records.lookup r with
  | none => simp
  | some y => simp [and_assoc]

section Windows

variable {ι : Type} [DecidableEq ι] (job : ι → Job)

/-- The items of a reservation that a run is shown. -/
def shownTo (i : ι) (r : String) (e : Occurrence ι) : List Record :=
  match e.call with
  | some (j, ⟨op, res⟩) => if j = i then op.shows r res else []
  | none => []

/-- An extension is by some time, and its write finds the times of the reservation as its run was
shown them. -/
def extendsWhatItIsShown (past : List (Occurrence ι)) (e : Occurrence ι) : Prop :=
  ∀ x ∈ extendedAt e, (∀ m ∈ (job x.1).message?, ∀ hours ∈ m.hours?, 0 < hours) ∧
    StaysTrue (shownTo x.1 x.2) (fun y w => y.hasTimesOf x.2 w = true) past

/-- An activation finds the duration as its run was shown it, and after an extension no more than
48 hours. -/
def activatesWhatItIsShown (past : List (Occurrence ι)) (e : Occurrence ι) : Prop :=
  ∀ x ∈ activatedAt e,
    StaysTrue (shownTo x.1 x.2) (fun y w => w.duration x.2 = y.durationHours) past ∧
    ((∃ d ∈ past, ∃ y ∈ extendedAt d, y.2 = x.2) →
      ∀ hours ∈ e.before.duration x.2, hours ≤ maxTotalHours)

/-- A message that has extended a reservation does not find it any more. -/
def findsOnlyOnce (past : List (Occurrence ι)) (e : Occurrence ι) : Prop :=
  ∀ c ∈ e.call, ∀ m ∈ (job c.1).message?, ∀ d ∈ past, ∀ y ∈ extendedAt d,
    (job y.1).delivers m.messageId = true → shownTo c.1 y.2 e = []

/-- The surroundings leave the durations of reservations as they are. -/
def leavesDurations (_past : List (Occurrence ι)) (e : Occurrence ι) : Prop :=
  e.call = none → ∀ r ∈ e.before.records.keys, ∀ hours ∈ e.before.duration r,
    e.after.duration r = some hours

/-- Nothing comes between what is read for a write and the write. -/
def keepsTimes (past : List (Occurrence ι)) (e : Occurrence ι) : Prop :=
  extendsWhatItIsShown job past e ∧ activatesWhatItIsShown past e ∧ findsOnlyOnce job past e ∧
    leavesDurations past e

instance (past : List (Occurrence ι)) (e : Occurrence ι) : Decidable (extendsOnce job past e) :=
  inferInstanceAs (Decidable (∀ x ∈ extendedAt e, _))

instance (past : List (Occurrence ι)) (e : Occurrence ι) :
    Decidable (extendsWhatItIsShown job past e) :=
  inferInstanceAs (Decidable (∀ x ∈ extendedAt e, _))

instance (past : List (Occurrence ι)) (e : Occurrence ι) :
    Decidable (activatesWhatItIsShown past e) :=
  inferInstanceAs (Decidable (∀ x ∈ activatedAt e, _))

instance (past : List (Occurrence ι)) (e : Occurrence ι) : Decidable (findsOnlyOnce job past e) :=
  inferInstanceAs (Decidable (∀ c ∈ e.call, _))

instance (past : List (Occurrence ι)) (e : Occurrence ι) : Decidable (leavesDurations past e) :=
  inferInstanceAs (Decidable (e.call = none → _))

instance (past : List (Occurrence ι)) (e : Occurrence ι) : Decidable (keepsTimes job past e) :=
  inferInstanceAs (Decidable (_ ∧ _))

end Windows

/-! ### What a run writes follows from what it is shown -/

/-- The update sets the times of a reservation. -/
def Change.setsTimes : Change → Bool
  | extended _ _ | activated _ _ _ => true
  | _ => false

/-- What a run makes of an item. -/
def Job.follows : Job → Change → Record → Prop
  | extend m, .extended new duration, x =>
    ∃ asked ∈ m.hours, ∃ stamp ∈ x.expiresAt, ∃ hours,
      newExpiry stamp x.launchedAt asked = .ok (new, hours) ∧
        duration = x.durationHours.map (· + hours)
  | activate _ _, .activated _ expiresAt launchedAt, x =>
    plusHours? launchedAt (x.durationHours.getD 2) = some expiresAt
  | _, _, _ => False

section Run

variable {r : String} {change : Change}

/-- The call is not this update. -/
def Op.Misses (r : String) (change : Change) (op : Op) : Prop := op ≠ .update r change

theorem misses_of_not_setsTimes (h : change.setsTimes = true) {id : String} {other : Change}
    (hother : other.setsTimes = false) : (Op.update id other).Misses r change := by
  intro heq
  cases heq
  rw [h] at hother
  cases hother

instance : AllowsIncidental (Op.Misses r change) where
  incidental op h := by
    rintro rfl
    cases h

/-- The update follows from no item that is shown. -/
def ShowsNoCause (job : Job) (r : String) (change : Change) (c : Program.Event Op Op.Res) : Prop :=
  ∀ x ∈ c.1.shows r c.2, ¬ job.follows change x

/-- No run sets the times of a reservation but from an item that it is shown. -/
theorem Job.misses (cfg : Settings) (job : Job) (r : String) (h : change.setsTimes = true) :
    (job.program cfg).Within (ShowsNoCause job r change) (Op.Misses r change) fun _ => True := by
  have hother : ∀ {id : String} {other : Change}, other.setsTimes = false →
      (Op.update id other).Misses r change := misses_of_not_setsTimes h
  cases job with
  | expiry =>
    refine (keeps_expiryHandler_of_all nofun (fun _ _ => nofun) (fun _ _ _ => nofun)
      fun id other hmessage => hother ?_).toEnd
    cases other <;> first | rfl | cases hmessage
  | extend m =>
    refine (keeps_processExtendReservationAction
      (F := fun x => x.id = r → ¬ (Job.extend m).follows change x) ?_ ?_ ?_).toEnd
    · exact fun id x hA hid => hA x (by simp [Op.shows, hid])
    · exact fun _ _ xs hA x hx hid => hA x (by simp [Op.shows, hx, hid])
    · intro x asked hx hasked
      refine keeps_extendReservation (fun _ => hother rfl)
        fun stamp new hours _ hstamp hnew heq => ?_
      cases heq
      exact hx rfl ⟨asked, hasked, stamp, hstamp, hours, hnew, rfl⟩
  | activate id podName =>
    refine (keeps_updateReservationConnectionInfo fun x now expiresAt hA _ hexpires heq => ?_).toEnd
    cases heq
    exact hA x (by simp [Op.shows]) hexpires
  | cancel id user =>
    exact (keeps_processCancellationRequest (F := fun _ => True) (fun _ _ _ => trivial)
      (fun _ _ _ _ _ _ => trivial) fun _ _ => keeps_cancelReservation (fun _ => nofun)
        (fun _ => hother rfl) fun _ _ => nofun).toEnd
  | clearDiskLock user disk => exact (keeps_processClearDiskLockAction fun _ => nofun).toEnd

end Run

/-- An extension that is not refused: the new expiry is the old one and the hours, and within 48
hours of the launch. -/
theorem newExpiry_eq_ok {stamp : Stamp} {launchedAt : Option Stamp} {asked : Hours} {new hours : ℚ}
    (h : newExpiry stamp launchedAt asked = .ok (new, hours)) :
    ∃ t, stamp = .moment t ∧ asked.float? = some hours ∧ new = t + hours * 3600 ∧
      ∀ l ∈ launchedAt.bind Stamp.time?, (new - l) / 3600 ≤ maxTotalHours := by
  unfold newExpiry at h
  split at h
  · rename_i t hours' ht hhours
    have hstamp : stamp = .moment t := by
      cases stamp with
      | moment u => exact congrArg Stamp.moment (Option.some.inj ht)
      | garbled => cases ht
    split at h
    · cases h
    · rename_i hplus
      cases h
      have hnew := (Option.ite_none_right_eq_some.mp hplus).2
      exact ⟨t, hstamp, hhours, (Option.some.inj hnew).symm, nofun⟩
    · rename_i launched hplus
      split at h
      · cases h
      · rename_i l hl
        split at h
        · cases h
        · cases h
          have hnew := (Option.ite_none_right_eq_some.mp hplus).2
          refine ⟨t, hstamp, hhours, (Option.some.inj hnew).symm, fun l' hl' => ?_⟩
          have heq : l = l' := Option.some.inj (hl.symm.trans hl')
          exact heq ▸ not_lt.mp ‹_›
  · cases h
  · cases h

/-! ### What is applied -/

theorem mem_applied {ι : Type} {e : Occurrence ι} {a : Applied ι} :
    a ∈ applied e ↔ (∃ res, e.call = some (a.run, ⟨.update a.reservation a.change, res⟩)) ∧
      e.after.records.lookup a.reservation =
        some (a.change.apply (e.before.recordOf a.reservation)) := by
  unfold applied
  split
  · rename_i i r change res hcall
    rw [hcall]
    constructor
    · intro h
      obtain ⟨hafter, ha⟩ := Option.ite_none_right_eq_some.mp h
      cases ha
      exact ⟨⟨res, rfl⟩, hafter⟩
    · rintro ⟨⟨res', hres⟩, hafter⟩
      cases a
      cases hres
      exact if_pos hafter
  · rename_i hnone
    constructor
    · exact fun h => nomatch h
    · rintro ⟨⟨res, hcall⟩, -⟩
      exact (hnone _ _ _ _ hcall).elim

theorem mem_extendedAt {ι : Type} {e : Occurrence ι} {x : ι × String} :
    x ∈ extendedAt e ↔ ∃ new duration, ⟨x.1, x.2, .extended new duration⟩ ∈ applied e := by
  unfold extendedAt
  constructor
  · intro h
    split at h
    · cases h
      exact ⟨_, _, ‹_›⟩
    · cases h
  · rintro ⟨new, duration, h⟩
    rw [Option.mem_def] at h
    rw [h]
    rfl

theorem mem_activatedAt {ι : Type} {e : Occurrence ι} {x : ι × String} :
    x ∈ activatedAt e ↔
      ∃ podName expiresAt launchedAt,
        ⟨x.1, x.2, .activated podName expiresAt launchedAt⟩ ∈ applied e := by
  unfold activatedAt
  constructor
  · intro h
    split at h
    · cases h
      exact ⟨_, _, _, ‹_›⟩
    · cases h
  · rintro ⟨podName, expiresAt, launchedAt, h⟩
    rw [Option.mem_def] at h
    rw [h]
    rfl

/-- A record that is there is the record of the reservation. -/
theorem World.recordOf_eq {w : World} {r : String} {x : Record} (h : w.records.lookup r = some x) :
    w.recordOf r = x := by
  simp [World.recordOf, h]

/-! ### Every history -/

section Histories

variable {cfg : Settings} {ι : Type} [DecidableEq ι] {job : ι → Job} {w : World}
  {T : System ι Op Op.Res Unit World} {later earlier es : List (Occurrence ι)} {e : Occurrence ι}

/-- What sets the times of a reservation follows from an item that the run was shown. -/
theorem exists_cause
    (h : History Op.Answers Elapses ⟨w, fun i => (job i).program cfg⟩ (later ++ e :: earlier) T)
    {a : Applied ι} (ha : a ∈ applied e) (hsets : a.change.setsTimes = true) :
    ∃ d ∈ earlier, ∃ x ∈ shownTo a.run a.reservation d, (job a.run).follows a.change x := by
  obtain ⟨⟨res, hcall⟩, -⟩ := mem_applied.mp ha
  obtain ⟨d, hd, ⟨dop, dres⟩, hdcall, hshown⟩ :=
    h.exists_before (Job.misses cfg (job a.run) a.reservation hsets) hcall
      fun hmisses => hmisses rfl
  simp only [ShowsNoCause, not_forall, not_not] at hshown
  obtain ⟨x, hx, hfollows⟩ := hshown
  exact ⟨d, hd, x, by simpa [shownTo, hdcall] using hx, hfollows⟩

/-- What an extension by some hours changes. -/
structure ExtendsBy (e : Occurrence ι) (r : String) (hours : ℚ) : Prop where
  pos : 0 < hours
  expiry : ∃ t, e.before.expiry r = some t ∧ e.after.expiry r = some (t + hours * 3600)
  duration : ∃ D, e.before.duration r = some D ∧ e.after.duration r = some (D + hours)
  capped : ∀ t ∈ e.after.expiry r, ∀ l ∈ e.after.launch r, (t - l) / 3600 ≤ maxTotalHours

/-- An extension that finds the times as its run was shown them extends the reservation by the
hours of its message. -/
theorem extendsBy_of_shown
    (h : History Op.Answers Elapses ⟨w, fun i => (job i).program cfg⟩ (later ++ e :: earlier) T)
    (hshown : extendsWhatItIsShown job earlier e) {x : ι × String} (hx : x ∈ extendedAt e) :
    (∃ m ∈ (job x.1).message?, ∃ hours ∈ m.hours?, ExtendsBy e x.2 hours) ∧
      ∃ d ∈ earlier, shownTo x.1 x.2 d ≠ [] := by
  obtain ⟨i, r⟩ := x
  obtain ⟨new, duration, ha⟩ := mem_extendedAt.mp hx
  obtain ⟨d, hd, y, hy, hfollows⟩ := exists_cause h ha rfl
  obtain ⟨hpos, hstays⟩ := hshown _ hx
  obtain ⟨U, hU, hbefore⟩ := h.before
  have htimes : y.hasTimesOf r e.before = true := hbefore ▸ hstays.holds hU d hd y hy
  refine ⟨?_, d, hd, List.ne_nil_of_mem hy⟩
  cases hjob : job i with
  | extend m =>
    simp only [hjob, Job.follows] at hfollows
    obtain ⟨asked, hasked, stamp, hstamp, hours, hnew, rfl⟩ := hfollows
    obtain ⟨t, rfl, hfloat, rfl, hcap⟩ := newExpiry_eq_ok hnew
    have hhours : hours ∈ m.hours? := Option.mem_bind_iff.mpr ⟨asked, hasked, hfloat⟩
    obtain ⟨z, hlookup, hexpires, hlaunched, hduration, hsome⟩ := Record.hasTimesOf_iff.mp htimes
    obtain ⟨D, hD⟩ := Option.isSome_iff_exists.mp hsome
    have hafter := (mem_applied.mp ha).2
    rw [World.recordOf_eq hlookup] at hafter
    have hz : z.expiresAt = some (.moment t) := hexpires.trans hstamp
    refine ⟨m, rfl, hours, hhours, hpos m (by rw [hjob]; rfl) hours hhours,
      ⟨t, ?_, ?_⟩, ⟨D, ?_, ?_⟩, ?_⟩
    · simp [World.expiry, hlookup, hz, Stamp.time?]
    · simp [World.expiry, hafter, Change.apply, Stamp.time?]
    · simp [World.duration, hlookup, hduration, hD]
    · simp [World.duration, hafter, Change.apply, hD]
    · intro t' ht' l hl
      have ht : t' = t + hours * 3600 := by
        simpa [World.expiry, hafter, Change.apply, Stamp.time?] using ht'.symm
      refine ht ▸ hcap l ?_
      simpa [World.launch, hafter, Change.apply, hlaunched] using hl
  | _ => simp [hjob, Job.follows] at hfollows

/-- A message that finds a reservation as it is when it is extended has not extended it before. -/
theorem not_delivers_of_shown
    (h : History Op.Answers Elapses ⟨w, fun i => (job i).program cfg⟩ (later ++ e :: earlier) T)
    (hkeeps : Throughout (keepsTimes job) (later ++ e :: earlier)) {i : ι} {r : String}
    (hx : (i, r) ∈ extendedAt e) {m : ExtendMessage} (hm : m ∈ (job i).message?)
    {d : Occurrence ι} (hd : d ∈ earlier) {y : ι × String} (hy : y ∈ extendedAt d) (hr : y.2 = r) :
    (job y.1).delivers m.messageId = false := by
  by_contra hdelivers
  rw [Bool.not_eq_false] at hdelivers
  obtain ⟨U, hU, -⟩ := h.before
  obtain ⟨⟨hshown, -, -, -⟩, hpast⟩ := Throughout.earlier hkeeps
  obtain ⟨-, s, hs, hne⟩ := extendsBy_of_shown h hshown hx
  obtain ⟨v, hv⟩ := List.exists_mem_of_ne_nil _ hne
  obtain ⟨since, before, rfl⟩ := List.append_of_mem hd
  rcases List.mem_append.mp hs with hs | hs
  · -- the reservation was found after the message had extended it
    obtain ⟨k₁, k₂, rfl⟩ := List.append_of_mem hs
    rw [List.append_assoc, List.cons_append] at hpast
    obtain ⟨-, -, honce, -⟩ := hpast.at
    subst hr
    cases hcall : s.call with
    | none => simp [shownTo, hcall] at hne
    | some c =>
      have hi : c.1 = i := by
        by_contra hi
        simp [shownTo, hcall, hi] at hne
      exact hne (hi ▸ honce c hcall m (hi ▸ hm) d (by simp) y hy hdelivers)
  · rcases List.mem_cons.mp hs with rfl | hs
    · obtain ⟨new, duration, ha⟩ := mem_extendedAt.mp hy
      obtain ⟨⟨res, hcall⟩, -⟩ := mem_applied.mp ha
      simp [shownTo, hcall, Op.shows] at hne
    · -- the message extended the reservation between look and write
      obtain ⟨⟨hextended, -, -, -⟩, -⟩ := Throughout.earlier hpast
      obtain ⟨⟨-, -, hours, -, hby⟩, -⟩ := extendsBy_of_shown hU hextended hy
      obtain ⟨hfound, hleft⟩ := StaysTrue.found hU (hshown _ hx).2 hs hv
      obtain ⟨a, ha, haexpires, -⟩ := Record.hasTimesOf_iff.mp hfound
      obtain ⟨b, hb, hbexpires, -⟩ := Record.hasTimesOf_iff.mp hleft
      obtain ⟨t, ht, ht'⟩ := hby.expiry
      have hsame : some (t + hours * 3600) = some t := by
        rw [← ht, ← ht', hr]
        simp [World.expiry, ha, hb, haexpires, hbexpires]
      have hpos := hby.pos
      have hzero : t + hours * 3600 = t := Option.some.inj hsame
      linarith

/-! ### Durations -/

omit [DecidableEq ι] in
theorem extendedBy_of_mem {i : ι} {r : String} (hx : (i, r) ∈ extendedAt e) {m : ExtendMessage}
    (hm : m ∈ (job i).message?) {hours : ℚ} (hhours : hours ∈ m.hours?) :
    extendedBy job r e = hours := by
  rw [Option.mem_def] at hx hm hhours
  simp [extendedBy, hx, hm, hhours]

omit [DecidableEq ι] in
theorem extendedBy_of_not {r : String} (h : ∀ x ∈ extendedAt e, x.2 ≠ r) :
    extendedBy job r e = 0 := by
  unfold extendedBy
  split
  · rename_i hx
    exact if_neg (h _ hx)
  · rfl

/-- A duration grows by what the reservation is extended by. -/
theorem duration_step
    (h : History Op.Answers Elapses ⟨w, fun i => (job i).program cfg⟩ (later ++ e :: earlier) T)
    (hkeeps : keepsTimes job earlier e) {r : String} {D : ℚ}
    (hD : e.before.duration r = some D) : e.after.duration r = some (D + extendedBy job r e) := by
  obtain ⟨hextends, -, -, hleaves⟩ := hkeeps
  by_cases hx : ∃ x ∈ extendedAt e, x.2 = r
  · obtain ⟨⟨i, _⟩, hx, rfl⟩ := hx
    obtain ⟨⟨m, hm, hours, hhours, hby⟩, -⟩ := extendsBy_of_shown h hextends hx
    obtain ⟨D', hbefore, hafter⟩ := hby.duration
    obtain rfl : D = D' := Option.some.inj (hD.symm.trans hbefore)
    rw [extendedBy_of_mem hx hm hhours]
    exact hafter
  · have hnone : ∀ x ∈ extendedAt e, x.2 ≠ r := fun x hx' hr => hx ⟨x, hx', hr⟩
    rw [extendedBy_of_not hnone, add_zero]
    obtain ⟨z, hz, hzD⟩ := Option.bind_eq_some_iff.mp hD
    cases hcall : e.call with
    | none =>
      exact hleaves hcall r (AList.lookup_isSome.mp (by simp [hz])) D hD
    | some c =>
      obtain ⟨i, op, res⟩ := c
      rcases (h.served (by simp) hcall).record r with hsame | ⟨change, rfl, happlied⟩
      · rw [World.duration, hsame, hz]
        exact hzD
      · rw [World.duration, happlied, World.recordOf_eq hz]
        cases change with
        | extended new duration =>
          exact (hnone (i, r) (mem_extendedAt.mpr ⟨new, duration,
            mem_applied.mpr ⟨⟨res, hcall⟩, happlied⟩⟩) rfl).elim
        | _ => exact hzD

/-- The duration of a reservation counts all that it has been extended by. -/
theorem duration_since
    (h : History Op.Answers Elapses ⟨w, fun i => (job i).program cfg⟩ (later ++ e :: earlier) T)
    (hkeeps : Throughout (keepsTimes job) (later ++ e :: earlier)) {x : ι × String}
    (hx : x ∈ extendedAt e) :
    ∃ D ∈ e.before.duration x.2,
      T.state.duration x.2 = some (D + ((later ++ [e]).map (extendedBy job x.2)).sum) := by
  induction later generalizing T with
  | nil =>
    obtain ⟨-, -, -, hafter⟩ := h.tail
    obtain ⟨⟨-, -, hours, -, hby⟩, -⟩ := extendsBy_of_shown h hkeeps.at.1 hx
    obtain ⟨D, hD, -⟩ := hby.duration
    refine ⟨D, hD, ?_⟩
    simpa [← hafter] using duration_step h hkeeps.at hD
  | cons d later ih =>
    obtain ⟨U, hU, hbefore, hafter⟩ := h.tail
    obtain ⟨D, hD, hsum⟩ := ih hU hkeeps.2
    refine ⟨D, hD, ?_⟩
    rw [← hbefore] at hsum
    have hstep : d.after.duration x.2 = some (D + ((later ++ [e]).map (extendedBy job x.2)).sum +
        extendedBy job x.2 d) :=
      duration_step (show History _ _ _ ([] ++ d :: _) T from h) hkeeps.1 hsum
    rw [← hafter, hstep, List.cons_append, List.map_cons, List.sum_cons]
    congr 1
    ring

/-- Extensions are granted exactly, once and within bounds, and activations grant them in full, in
every history in which nothing comes between what is read for a write and the write, and no
message finds what it has extended. -/
theorem extensions_granted
    (h : History Op.Answers Elapses ⟨w, fun i => (job i).program cfg⟩ es T)
    (hkeeps : Throughout (keepsTimes job) es) : Throughout (grantsExtensions job) es := by
  refine Throughout.imp (fun later e earlier hsplit hnow => ⟨?_, ?_⟩) hkeeps
  · subst hsplit
    intro x hx
    obtain ⟨⟨m, hm, hours, hhours, hby⟩, -⟩ := extendsBy_of_shown h hnow.1 hx
    obtain ⟨t, hbefore, hafter⟩ := hby.expiry
    exact ⟨m, hm, ⟨hours, hhours, hby.pos, t, hbefore, hafter⟩,
      fun d hd y hy hr => not_delivers_of_shown h hkeeps hx hm hd hy hr, hby.capped⟩
  · subst hsplit
    rintro ⟨i, r⟩ hx later' d past rfl ⟨y, hy, hr⟩
    obtain rfl : y.2 = r := hr
    obtain ⟨-, hactivates, -, -⟩ := hnow
    obtain ⟨hstays, hcap⟩ := hactivates _ hx
    obtain ⟨U, hU, hbefore⟩ := h.before
    obtain ⟨D, hD, htotal⟩ := duration_since hU (Throughout.earlier hkeeps).2 hy
    rw [← hbefore] at htotal
    obtain ⟨podName, expiresAt, launchedAt, ha⟩ := mem_activatedAt.mp hx
    obtain ⟨s, hs, v, hv, hfollows⟩ := exists_cause h ha rfl
    have hshown : e.before.duration y.2 = v.durationHours := hbefore ▸ hstays.holds hU s hs v hv
    have hafter := (mem_applied.mp ha).2
    refine ⟨launchedAt, ?_, D, hD, ?_, hcap ⟨d, by simp, y, hy, rfl⟩ _ htotal⟩
    · simp [World.launch, hafter, Change.apply, Stamp.time?]
    · cases hjob : job i with
      | activate id pod =>
        simp only [hjob, Job.follows, ← hshown, htotal, Option.getD_some] at hfollows
        have hexpires := (Option.ite_none_right_eq_some.mp hfollows).2
        simp [World.expiry, hafter, Change.apply, Stamp.time?, ← Option.some.inj hexpires]
      | _ => simp [hjob, Job.follows] at hfollows

end Histories

/-! ### Extensions side by side -/

/-- A reservation of two hours whose pod is being set up. -/
def beingSetUp : World :=
  { justOver with
    records := AList.singleton twoHours.id
      { twoHours with status := "preparing", launchedAt := none } }

/-- An extension by an hour, the activation, and an extension by two hours. -/
def extendedTwice : Fin 3 → Job
  | 0 => .extend ⟨"m1", twoHours.id, "mira", some (.number 1)⟩
  | 1 => .activate twoHours.id "gpu-dev-6f1d3c52"
  | 2 => .extend ⟨"m2", twoHours.id, "mira", some (.text "2")⟩

/-- All of them before any has begun. -/
def beforeExtensions : System (Fin 3) Op Op.Res Unit World :=
  ⟨beingSetUp, fun i => (extendedTwice i).program .usual⟩

/-- One after the other. -/
def inTurn : List (Turn (Fin 3) World) :=
  List.replicate 3 (.call 0) ++ List.replicate 5 (.call 1) ++ List.replicate 3 (.call 2)

/-- Both extensions read the expiry before either of them writes it. -/
def sideBySide : List (Turn (Fin 3) World) := [.call 0, .call 2, .call 0, .call 2]

theorem extensions_granted_inTurn :
    Throughout (grantsExtensions extendedTwice)
      (play Script.fine.serve beforeExtensions inTurn).1 :=
  extensions_granted
    (History.of_play Script.fine.answers_serve beforeExtensions inTurn (by simp [inTurn]))
    (by decide +kernel)

/-- Of two extensions that are granted side by side, one is lost. -/
theorem not_granted_sideBySide :
    History Op.Answers Elapses beforeExtensions
      (play Script.fine.serve beforeExtensions sideBySide).1
      (play Script.fine.serve beforeExtensions sideBySide).2 ∧
    ¬ Throughout (grantsExtensions extendedTwice)
      (play Script.fine.serve beforeExtensions sideBySide).1 := by
  refine ⟨History.of_play Script.fine.answers_serve beforeExtensions sideBySide
    (by simp [sideBySide]), fun h => ?_⟩
  have hextends : Throughout (extendsOnce extendedTwice)
      (play Script.fine.serve beforeExtensions sideBySide).1 :=
    h.imp fun _ _ _ _ hgrants => hgrants.1
  revert hextends
  decide +kernel

end CiInfra.GpuDev.Lifecycle
