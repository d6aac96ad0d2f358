import CiInfra.GpuDev.ExpiryHandler
import CiInfra.Lib.Ranks
import CiInfra.Lib.Runs

/-!
# Expiry warnings

A run of the expiry handler lists a reservation, sends it at most one warning, and marks the level
of the warning as sent, by a map that it makes from the item that it has listed. An extension moves
the expiry and clears the map. Is each level sent once between two extensions, and the level that is
sent always the most urgent one?
-/

namespace CiInfra.GpuDev.ExpiryWarnings

open Lifecycle (Record Change)

/-! ### A run of the handler -/

def minutesUntilExpiry (currentTime : ℤ) (reservation : Record) : ℤ :=
  (reservation.expiresAtSeconds - currentTime) / 60

/-- The level is reached, and it is not marked as sent. -/
def isDue (currentTime : ℤ) (reservation : Record) (level : ℤ) : Bool :=
  minutesUntilExpiry currentTime reservation ≤ level && !reservation.warningsSent.contains level

/-- `warning_to_send`: the first level that is due, from the highest one down. A level of zero is
not sent. -/
def warningToSend (levels : List ℤ) (currentTime : ℤ) (reservation : Record) : Option ℤ :=
  ((Ranks.sortBy (fun level => -level) levels).find? (isDue currentTime reservation)).filter (· ≠ 0)

/-- The handler comes to the warnings: the reservation is active, and its time is not over. -/
def isWarned (cfg : Lifecycle.Settings) (currentTime : ℤ) (reservation : Record) : Bool :=
  reservation.status == "active" && !reservation.isOver cfg currentTime

/-- With the levels of the handler this is what it sends. -/
theorem warningToSend_eq (currentTime : ℤ) (reservation : Record) :
    warningToSend Lifecycle.warningLevels currentTime reservation =
      Lifecycle.warningToSend currentTime reservation := by
  have hsorted : Ranks.sortBy (fun level : ℤ => -level) Lifecycle.warningLevels =
      Lifecycle.warningLevels := by decide
  have hpositive : ∀ level ∈ Lifecycle.warningLevels, level ≠ 0 := by decide
  rw [warningToSend, hsorted]
  change (Lifecycle.warningToSend currentTime reservation).filter _ = _
  cases hlevel : Lifecycle.warningToSend currentTime reservation with
  | none => rfl
  | some level =>
    have hmem := List.mem_of_find?_eq_some (p := isDue currentTime reservation) hlevel
    exact Option.filter_some_pos (decide_eq_true (hpositive level hmem))

/-! ### Runs and extensions -/

/-- A warning that a run is about to send or has sent, and has not marked: the time of the run, the
item that it listed, and the level. -/
structure Warning where
  time : ℤ
  listed : Record
  level : ℤ
  isDelivered : Bool
  deriving DecidableEq

/-- The item, what the runs of the handler are about to do, and the levels that have been sent since
the last extension. -/
structure State where
  item : Record
  warnings : List Warning
  sent : List ℤ
  deriving DecidableEq

/-- The update marks a warning as sent. -/
def marks : Change → Bool
  | .warned _ _ => true
  | _ => false

def isExtension : Change → Bool
  | .extended _ _ => true
  | _ => false

/-- The update sets the expiry. -/
def reschedules : Change → Bool
  | .extended _ _ | .activated _ _ _ => true
  | _ => false

/-- What happens. A listing that is out of date is one that was made earlier. -/
inductive Event
  /-- A run reads the time, and lists the item. -/
  | lists (currentTime : ℤ)
  /-- A warning is sent to the pod. -/
  | delivers (i : ℕ)
  /-- `warn_user_expiring` ends: it marks the level, or it does not because something failed. -/
  | finishes (i : ℕ) (isMarked : Bool) (time : ℤ)
  /-- An update by any other function of either Lambda. -/
  | changes (c : { c : Change // marks c = false })

variable (levels : List ℤ) (cfg : Lifecycle.Settings)

def step (s : State) : Event → State
  | .lists currentTime =>
    if isWarned cfg currentTime s.item then
      match warningToSend levels currentTime s.item with
      | some level => { s with warnings := s.warnings ++ [⟨currentTime, s.item, level, false⟩] }
      | none => s
    else s
  | .delivers i =>
    match s.warnings[i]? with
    | some w =>
      if w.isDelivered then s
      else { s with
        warnings := s.warnings.set i { w with isDelivered := true }
        sent := w.level :: s.sent }
    | none => s
  | .finishes i isMarked time =>
    match s.warnings[i]? with
    | some w =>
      { s with
        item :=
          if isMarked then (Change.warned (w.level :: w.listed.warningsSent) time).apply s.item
          else s.item
        warnings := s.warnings.eraseIdx i }
    | none => s
  | .changes c =>
    { s with
      item := c.1.apply s.item
      sent := if isExtension c.1 then [] else s.sent }

/-- The level is the most urgent one that is reached. -/
def IsMostUrgent (minutes level : ℤ) : Prop :=
  level ∈ levels ∧ minutes ≤ level ∧ ∀ other ∈ levels, minutes ≤ other → level ≤ other

instance (minutes level : ℤ) : Decidable (IsMostUrgent levels minutes level) :=
  inferInstanceAs (Decidable (level ∈ levels ∧ minutes ≤ level ∧
    ∀ other ∈ levels, minutes ≤ other → level ≤ other))

/-- What is claimed of a step: a run sends the most urgent level if it has not been sent since the
last extension, and nothing else. -/
def IsTimely (s : State) : Event → Prop
  | .lists currentTime => isWarned cfg currentTime s.item → ∀ level,
      warningToSend levels currentTime s.item = some level ↔
        IsMostUrgent levels (minutesUntilExpiry currentTime s.item) level ∧ level ∉ s.sent
  | .delivers i => ∀ w, s.warnings[i]? = some w → w.isDelivered = false →
      IsMostUrgent levels (minutesUntilExpiry w.time s.item) w.level ∧ w.level ∉ s.sent
  | .finishes _ _ _ | .changes _ => True

/-- What has to hold before a step. If a level is due in a run, then it is the most urgent one that
is reached, it is not zero, and no other run is about to mark a level; a level is marked exactly if
its warning has been sent; and the expiry is not set while a run is about to mark a level. -/
def IsOrderly (s : State) : Event → Prop
  | .lists currentTime => isWarned cfg currentTime s.item →
      ∀ level ∈ levels, isDue currentTime s.item level →
        IsMostUrgent levels (minutesUntilExpiry currentTime s.item) level ∧ level ≠ 0 ∧
          s.warnings = []
  | .delivers _ => True
  | .finishes i isMarked _ => (s.warnings[i]?).all fun w => isMarked == w.isDelivered
  | .changes c => reschedules c.1 → s.warnings = []

instance (s : State) : (e : Event) → Decidable (IsOrderly levels cfg s e)
  | .lists currentTime =>
    inferInstanceAs (Decidable (isWarned cfg currentTime s.item →
      ∀ level ∈ levels, isDue currentTime s.item level →
        IsMostUrgent levels (minutesUntilExpiry currentTime s.item) level ∧ level ≠ 0 ∧
          s.warnings = []))
  | .delivers _ => inferInstanceAs (Decidable True)
  | .finishes i isMarked _ =>
    inferInstanceAs (Decidable ((s.warnings[i]?).all fun w => isMarked == w.isDelivered))
  | .changes c => inferInstanceAs (Decidable (reschedules c.1 → s.warnings = []))

/-- The state before the first run: no warning has been sent. -/
def start (item : Record) : State := ⟨{ item with warningsSent := [] }, [], []⟩

/-- What an orderly run keeps. At most one warning is on its way; it was made from an item with the
expiry and the marks of the present one. What is marked has been sent, and what has been sent is
marked or on its way. -/
structure IsKept (s : State) : Prop where
  one : s.warnings.length ≤ 1
  same : ∀ w ∈ s.warnings, w.listed.warningsSent = s.item.warningsSent
  urgent : ∀ w ∈ s.warnings, IsMostUrgent levels (minutesUntilExpiry w.time s.item) w.level
  unmarked : ∀ w ∈ s.warnings, w.level ∉ s.item.warningsSent
  marked : ∀ level ∈ s.item.warningsSent, level ∈ s.sent
  delivered : ∀ w ∈ s.warnings, w.isDelivered = true → w.level ∈ s.sent
  sent : ∀ level ∈ s.sent, level ∈ s.item.warningsSent ∨
    ∃ w ∈ s.warnings, w.isDelivered = true ∧ w.level = level

variable {levels cfg} {s : State} {currentTime : ℤ} {reservation : Record}

/-! ### The warning of a run -/

theorem isDue_iff {level : ℤ} : isDue currentTime reservation level ↔
    minutesUntilExpiry currentTime reservation ≤ level ∧ level ∉ reservation.warningsSent := by
  simp [isDue]

theorem isDue_of_warningToSend {level : ℤ}
    (h : warningToSend levels currentTime reservation = some level) :
    level ∈ levels ∧ isDue currentTime reservation level := by
  have hfind := (Option.filter_eq_some_iff.mp h).1
  exact ⟨(Ranks.sortBy_perm _ _).mem_iff.mp (List.mem_of_find?_eq_some hfind),
    List.find?_some hfind⟩

/-- If what is due is the most urgent level that is reached, then this level is sent, unless it is
marked. -/
theorem warningToSend_iff (horderly : ∀ level ∈ levels, isDue currentTime reservation level →
      IsMostUrgent levels (minutesUntilExpiry currentTime reservation) level ∧ level ≠ 0)
    (level : ℤ) : warningToSend levels currentTime reservation = some level ↔
      IsMostUrgent levels (minutesUntilExpiry currentTime reservation) level ∧
        level ∉ reservation.warningsSent := by
  constructor
  · intro h
    obtain ⟨hmem, hdue⟩ := isDue_of_warningToSend h
    exact ⟨(horderly level hmem hdue).1, (isDue_iff.mp hdue).2⟩
  · rintro ⟨⟨hmem, hreached, hurgent⟩, hunmarked⟩
    have hperm := Ranks.sortBy_perm (fun level => -level) levels
    have hsome : ((Ranks.sortBy (fun level => -level) levels).find?
        (isDue currentTime reservation)).isSome :=
      List.find?_isSome.mpr ⟨level, hperm.mem_iff.mpr hmem, isDue_iff.mpr ⟨hreached, hunmarked⟩⟩
    obtain ⟨found, hfound⟩ := Option.isSome_iff_exists.mp hsome
    have hfoundMem := hperm.mem_iff.mp (List.mem_of_find?_eq_some hfound)
    have hfoundDue := List.find?_some hfound
    obtain ⟨hmost, hne⟩ := horderly found hfoundMem hfoundDue
    have hsame : found = level := le_antisymm (hmost.2.2 level hmem hreached)
      (hurgent found hfoundMem (isDue_iff.mp hfoundDue).1)
    rw [warningToSend, hfound, ← hsame]
    exact Option.filter_some_pos (decide_eq_true hne)

/-! ### Orderly runs -/

/-- Between the runs, what is marked is what has been sent. -/
theorem isKept_of_nil (hwarnings : s.warnings = [])
    (hmarked : ∀ level, level ∈ s.item.warningsSent ↔ level ∈ s.sent) : IsKept levels s := by
  have hnone : ∀ w, w ∉ s.warnings := fun w => hwarnings ▸ List.not_mem_nil
  exact {
    one := hwarnings ▸ Nat.zero_le _
    same := fun w hw => absurd hw (hnone w)
    urgent := fun w hw => absurd hw (hnone w)
    unmarked := fun w hw => absurd hw (hnone w)
    marked := fun level => (hmarked level).mp
    delivered := fun w hw => absurd hw (hnone w)
    sent := fun level hlevel => .inl ((hmarked level).mpr hlevel) }

theorem IsKept.mem_iff_of_nil (h : IsKept levels s) (hwarnings : s.warnings = []) (level : ℤ) :
    level ∈ s.item.warningsSent ↔ level ∈ s.sent := by
  refine ⟨h.marked level, fun hsent => (h.sent level hsent).resolve_right ?_⟩
  rintro ⟨w, hw, -⟩
  exact absurd (hwarnings ▸ hw) List.not_mem_nil

/-- With one warning on its way, what has been sent is marked, or it is that one. -/
theorem IsKept.mem_iff (h : IsKept levels s) {w : Warning} (hw : w ∈ s.warnings) (level : ℤ) :
    level ∈ s.sent ↔
      level ∈ s.item.warningsSent ∨ (w.isDelivered = true ∧ w.level = level) := by
  constructor
  · intro hsent
    refine (h.sent level hsent).imp_right ?_
    rintro ⟨other, hother, hdelivered⟩
    rwa [Ranks.eq_of_length_le_one h.one hw hother]
  · rintro (hmarked | ⟨hdelivered, rfl⟩)
    · exact h.marked level hmarked
    · exact h.delivered w hw hdelivered

/-- An update that does not set the expiry keeps the marks. -/
theorem apply_eq (reservation : Record) {c : Change} (hmarks : marks c = false)
    (hreschedules : ¬ reschedules c) :
    (c.apply reservation).expiresAt = reservation.expiresAt ∧
      (c.apply reservation).warningsSent = reservation.warningsSent := by
  cases c with
  | warned sent time => cases hmarks
  | extended expiresAt duration => exact absurd rfl hreschedules
  | activated podName expiresAt launchedAt => exact absurd rfl hreschedules
  | _ => exact ⟨rfl, rfl⟩

/-- What an orderly step keeps, and that it is timely, by the events. -/
theorem isTimely_of_isOrderly (s : State) (e : Event) (h : IsKept levels s)
    (horderly : IsOrderly levels cfg s e) : IsTimely levels cfg s e := by
  cases e with
  | lists currentTime =>
    intro hwarned level
    rw [warningToSend_iff fun level hmem hdue =>
      ⟨(horderly hwarned level hmem hdue).1, (horderly hwarned level hmem hdue).2.1⟩]
    refine and_congr_right fun hurgent => not_congr ⟨h.marked level, fun hsent => ?_⟩
    by_contra hunmarked
    -- The level is due, so no run is about to mark a level.
    have hnone :=
      (horderly hwarned level hurgent.1 (isDue_iff.mpr ⟨hurgent.2.1, hunmarked⟩)).2.2
    exact hunmarked ((h.mem_iff_of_nil hnone level).mpr hsent)
  | delivers i =>
    intro w hw hdelivered
    have hmem := List.mem_of_getElem? hw
    refine ⟨h.urgent w hmem, fun hsent => ?_⟩
    obtain hmarked | ⟨hisDelivered, -⟩ := (h.mem_iff hmem _).mp hsent
    · exact h.unmarked w hmem hmarked
    · rw [hdelivered] at hisDelivered
      cases hisDelivered
  | finishes i isMarked time => trivial
  | changes c => trivial

theorem isKept_lists (h : IsKept levels s) {currentTime : ℤ}
    (horderly : IsOrderly levels cfg s (.lists currentTime)) :
    IsKept levels (step levels cfg s (.lists currentTime)) := by
  unfold step
  simp only
  split_ifs with hwarned
  · cases hlevel : warningToSend levels currentTime s.item with
    | none => exact h
    | some level =>
      obtain ⟨hmem, hdue⟩ := isDue_of_warningToSend hlevel
      obtain ⟨hurgent, -, hnone⟩ := horderly hwarned level hmem hdue
      have hmarked := h.mem_iff_of_nil hnone
      simp only [hnone, List.nil_append]
      exact {
        one := le_rfl
        same := List.forall_mem_singleton.mpr rfl
        urgent := List.forall_mem_singleton.mpr hurgent
        unmarked := List.forall_mem_singleton.mpr (isDue_iff.mp hdue).2
        marked := fun level => (hmarked level).mp
        delivered := List.forall_mem_singleton.mpr fun hfalse => absurd hfalse Bool.false_ne_true
        sent := fun level hsent => .inl ((hmarked level).mpr hsent) }
  · exact h

theorem isKept_delivers (h : IsKept levels s) (i : ℕ) :
    IsKept levels (step levels cfg s (.delivers i)) := by
  unfold step
  simp only
  cases hi : s.warnings[i]? with
  | none => exact h
  | some w =>
    have hmem := List.mem_of_getElem? hi
    have hset : ∀ {P : Warning → Prop}, (∀ w ∈ s.warnings, P w) → P { w with isDelivered := true } →
        ∀ w' ∈ s.warnings.set i { w with isDelivered := true }, P w' := by
      intro P hall hw w' hw'
      rcases List.mem_or_eq_of_mem_set hw' with hw' | rfl
      · exact hall w' hw'
      · exact hw
    obtain ⟨hlt, -⟩ := List.getElem?_eq_some_iff.mp hi
    simp only
    split_ifs with hdelivered
    · exact h
    · exact {
        one := by
          rw [List.length_set]
          exact h.one
        same := hset h.same (h.same w hmem)
        urgent := hset h.urgent (h.urgent w hmem)
        unmarked := hset h.unmarked (h.unmarked w hmem)
        marked := fun level hlevel => List.mem_cons_of_mem _ (h.marked level hlevel)
        delivered := hset
          (fun w hw hdelivered => List.mem_cons_of_mem _ (h.delivered w hw hdelivered))
          fun _ => List.mem_cons_self
        sent := by
          intro level hlevel
          rcases List.mem_cons.mp hlevel with rfl | hlevel
          · exact .inr ⟨_, List.mem_set hlt _, rfl, rfl⟩
          · refine .inl (((h.mem_iff hmem level).mp hlevel).resolve_right fun hw => ?_)
            exact hdelivered hw.1 }

theorem isKept_finishes (h : IsKept levels s) {i : ℕ} {isMarked : Bool} {time : ℤ}
    (horderly : IsOrderly levels cfg s (.finishes i isMarked time)) :
    IsKept levels (step levels cfg s (.finishes i isMarked time)) := by
  unfold step
  simp only
  cases hi : s.warnings[i]? with
  | none => exact h
  | some w =>
    have hmem := List.mem_of_getElem? hi
    have hmarked : isMarked = w.isDelivered := by
      simpa [IsOrderly, hi] using horderly
    obtain ⟨hlt, -⟩ := List.getElem?_eq_some_iff.mp hi
    have hone := h.one
    refine isKept_of_nil (List.eq_nil_of_length_eq_zero ?_) fun level => ?_
    · rw [List.length_eraseIdx_of_lt hlt]
      omega
    · simp only
      rw [h.mem_iff hmem level, hmarked]
      cases w.isDelivered with
      | true =>
        rw [if_pos rfl]
        change level ∈ w.level :: w.listed.warningsSent ↔ _
        rw [List.mem_cons, h.same w hmem]
        tauto
      | false => simp

theorem isKept_changes (h : IsKept levels s) {c : { c : Change // marks c = false }}
    (horderly : IsOrderly levels cfg s (.changes c)) :
    IsKept levels (step levels cfg s (.changes c)) := by
  unfold step
  simp only
  by_cases hreschedules : reschedules c.1
  · have hnone : s.warnings = [] := horderly hreschedules
    refine isKept_of_nil hnone fun level => ?_
    have hmarked := h.mem_iff_of_nil hnone level
    obtain ⟨c, hc⟩ := c
    cases c with
    | extended expiresAt duration => exact iff_of_false List.not_mem_nil List.not_mem_nil
    | activated podName expiresAt launchedAt => exact hmarked
    | _ => cases hreschedules
  · obtain ⟨hexpiresAt, hwarningsSent⟩ := apply_eq s.item c.2 hreschedules
    have hminutes : ∀ time, minutesUntilExpiry time (c.1.apply s.item) =
        minutesUntilExpiry time s.item := by
      intro time
      rw [minutesUntilExpiry, Record.expiresAtSeconds, hexpiresAt]
      rfl
    have hextension : ¬ isExtension c.1 := by
      obtain ⟨c, hc⟩ := c
      cases c with
      | extended expiresAt duration => exact absurd rfl hreschedules
      | _ => exact Bool.false_ne_true
    rw [if_neg hextension]
    exact {
      one := h.one
      same := by simpa only [hwarningsSent] using h.same
      urgent := by simpa only [hminutes] using h.urgent
      unmarked := by simpa only [hwarningsSent] using h.unmarked
      marked := by simpa only [hwarningsSent] using h.marked
      delivered := h.delivered
      sent := by simpa only [hwarningsSent] using h.sent }

theorem isKept_step (s : State) (e : Event) (h : IsKept levels s)
    (horderly : IsOrderly levels cfg s e) : IsKept levels (step levels cfg s e) := by
  cases e with
  | lists currentTime => exact isKept_lists h horderly
  | delivers i => exact isKept_delivers h i
  | finishes i isMarked time => exact isKept_finishes h horderly
  | changes c => exact isKept_changes h horderly

/-- In an orderly run each run of the handler sends the most urgent level that it reaches, once
until the next extension, and after it again. -/
theorem isTimely_run (levels : List ℤ) (cfg : Lifecycle.Settings) (item : Record) (run : List Event)
    (horderly : Runs.Along (step levels cfg) (IsOrderly levels cfg) (start item) run) :
    Runs.Along (step levels cfg) (IsTimely levels cfg) (start item) run :=
  Runs.Along.of_invariant isKept_step isTimely_of_isOrderly
    (isKept_of_nil rfl fun _ => Iff.rfl) horderly

/-! ### Two runs -/

/-- An active reservation with an expiry. -/
def reservationUntil (expiresAt : ℚ) : Record :=
  { Record.fresh "reservation-1" with
    status := "active"
    expiresAt := some (.moment expiresAt)
    podName := "gpu-dev-1" }

/-- Two minutes of grace. -/
def twoMinutes : Lifecycle.Settings where
  gracePeriodSeconds := 120
  dnsEnabled := false
  loadBalancerEnabled := false

/-- Before and after an extension by two hours the first warning is sent. -/
def extendedRun : List Event :=
  [.lists 8300, .delivers 0, .finishes 0 true 8301, .lists 8360,
    .changes ⟨.extended 17200 none, rfl⟩, .lists 15500, .delivers 0, .finishes 0 true 15501]

theorem isTimely_extendedRun :
    Runs.Along (step [30, 15, 5] twoMinutes) (IsTimely [30, 15, 5] twoMinutes)
      (start (reservationUntil 10000)) extendedRun := by
  refine isTimely_run [30, 15, 5] twoMinutes _ _ ?_
  decide +kernel

/-- With ten minutes left a first run of the handler sends the warning of 30 minutes, although the
one of 15 minutes is reached. -/
theorem not_isTimely : ¬ ∀ run, Runs.Along (step [30, 15, 5] twoMinutes)
    (IsTimely [30, 15, 5] twoMinutes) (start (reservationUntil 10000)) run := by
  intro hall
  have hfirst := (hall [.lists 9400]).1
  have hsends : warningToSend [30, 15, 5] 9400 (start (reservationUntil 10000)).item = some 30 := by
    decide +kernel
  have hurgent := ((hfirst (by decide +kernel) 30).mp hsends).1.2.2 15 (by decide)
    (by decide +kernel)
  omega

end CiInfra.GpuDev.ExpiryWarnings
