import CiInfra.GpuDev.SpotGroups
import CiInfra.Lib.PlainNumbers
import CiInfra.Lib.Runs
import Mathlib.Tactic.Linarith

/-!
# Scaling spot groups down

A spot group is not to be scaled to zero while a reservation needs it, nor before the grace period
after the last one is over. This file says which runs of the updater keep to that, and which records
hide a need from it.
-/

namespace CiInfra.GpuDev.SpotGroups

open Interaction (Paging)
open Runs (Along)

variable {c : Settings} {w : World} {v : Visit} {st : String}

/-! ### What is to hold -/

/-- The reservation needs nodes of the type: it is for the type, or for slices of it. -/
def Needs (r : Reservation) (st : String) : Prop :=
  r.requested = st ∨ nodeGpuType r.requested = st

/-- A reservation that is active, preparing, queued or pending needs nodes of the type. -/
def IsNeeded (w : World) (st : String) : Prop :=
  ∃ r ∈ w.reservations, r.status ∈ liveStatuses ∧ Needs r st

/-- The grace period. -/
def Settings.grace (c : Settings) : ℚ := c.keepaliveMinutes * 60

/-- A group that is scaled to zero is not needed, and has not been seen to be for the grace
period. -/
def Safe (c : Settings) (w : World) : Step → Prop
  | .visit v st => st ∈ c.spotList → scalesDown c w v st = true →
    ¬ IsNeeded w st ∧ ∀ seen, w.lastSeen st = some seen → seen + c.grace ≤ v.now
  | _ => True

/-! ### When it does -/

/-- One of the records on the first page for its status has the type, in whatever case. -/
def IsListed (w : World) (v : Visit) (st : String) : Prop :=
  ∃ status ∈ liveStatuses, ∃ item ∈ listed w v status, lower (item.gpuType.getD "") = lower st

theorem hasActive_iff : hasActive w v st = true ↔ IsListed w v st := by
  simp [hasActive, IsListed]

/-- A need for a group that is due shows in the records. -/
def Shows (c : Settings) (w : World) (v : Visit) (st : String) : Prop :=
  v.raises = false → isDue c w v st = true → IsNeeded w st → IsListed w v st

/-- What is asked of a visit. -/
structure VisitFits (c : Settings) (w : World) (v : Visit) (st : String) : Prop where
  shows : Shows c w v st
  /-- A run that sees a reservation writes the tag, after the first second there is. -/
  stamps : v.raises = false → IsListed w v st →
    v.stamps = true ∧ (w.groups (c.asg st)).isSome ∧ 1 ≤ v.now
  /-- The run does not come after the grace period from the whole second in which a reservation was
  seen, but before the one from the exact time. -/
  late : ∀ seen, w.lastSeen st = some seen →
    ¬ (⌊seen⌋ + c.grace ≤ v.now ∧ v.now < seen + c.grace)

/-- What is asked of a step. Others leave the tag of a group alone. -/
def Fits (c : Settings) (w : World) : Step → Prop
  | .visit v st => st ∈ c.spotList → VisitFits c w v st
  | .change name g => (∃ st, c.asg st = name ∧ (w.lastSeen st).isSome) →
    ∀ g' ∈ g, ∃ g₀ ∈ w.groups name, g'.lastActive = g₀.lastActive
  | _ => True

/-! ### The tag -/

theorem lastActive_stamp (g : Group) {now : ℚ} (hnow : 1 ≤ now) :
    (g.stamp now).lastActive = ⌊now⌋ := by
  have hfloor : 1 ≤ ⌊now⌋ := Int.le_floor.mpr (by exact_mod_cast hnow)
  have htruncate : PythonNumber.truncate now = ⌊now⌋ := if_pos (by linarith)
  obtain ⟨n, hn⟩ := Int.eq_ofNat_of_zero_le (by omega : 0 ≤ ⌊now⌋)
  have hint := PythonNumber.int?_toString n
  have hne : toString (n : ℤ) ≠ "" := by
    intro hempty
    rw [hempty] at hint
    exact absurd hint (by simp [PythonNumber.int?, PythonNumber.strip, PythonNumber.sign,
      PythonNumber.digitsFrom])
  have hlookup : (g.stamp now).tags.lookup spotLastActiveTag = some (toString (n : ℤ)) := by
    rw [Group.stamp, Overwriting.lookup_write, htruncate, hn]
  rw [Group.lastActive, hlookup, Option.filter_some, if_pos (by simpa using hne)]
  change (PythonNumber.int? (toString (n : ℤ)).toList).getD 0 = _
  rw [hint, hn]
  rfl

theorem asg_inj {st st' : String} (h : c.asg st = c.asg st') : st = st' := by
  simpa [Settings.asg, String.append_assoc] using h

/-! ### Runs -/

/-- Where a reservation was seen, the tag has the second in which it was. -/
def TagsKept (c : Settings) (w : World) : Prop :=
  ∀ st seen, w.lastSeen st = some seen →
    1 ≤ seen ∧ ∀ g, w.groups (c.asg st) = some g → g.lastActive = ⌊seen⌋

/-- A change of a group that keeps the tag. -/
theorem TagsKept.updateGroup (h : TagsKept c w) {name : String} {f : Group → Group}
    (hf : ∀ g, (f g).lastActive = g.lastActive) : TagsKept c (w.updateGroup name f) := by
  intro st seen hseen
  obtain ⟨hone, htag⟩ := h st seen hseen
  refine ⟨hone, fun g hg => ?_⟩
  rw [World.groups_updateGroup] at hg
  by_cases hname : c.asg st = name
  · rw [hname, Function.update_self] at hg
    obtain ⟨g₀, hg₀, rfl⟩ := Option.map_eq_some_iff.mp hg
    rw [hf]
    exact htag g₀ (by rw [hname, hg₀])
  · rw [Function.update_of_ne hname] at hg
    exact htag g hg

theorem TagsKept.visit (h : TagsKept c w) (hfits : VisitFits c w v st) :
    TagsKept c (visit c w v st) := by
  unfold SpotGroups.visit
  split
  case isTrue => exact h
  case isFalse hraises =>
    split
    case isTrue hactive =>
      obtain ⟨hstamps, hgroup, hnow⟩ :=
        hfits.stamps (Bool.eq_false_iff.mpr hraises) (hasActive_iff.mp hactive)
      rw [if_pos hstamps]
      intro st' seen hseen
      rw [World.lastSeen_see] at hseen
      rw [World.groups_see, World.groups_updateGroup]
      by_cases hst : st' = st
      · subst hst
        rw [Function.update_self] at hseen
        obtain rfl := Option.some.inj hseen
        refine ⟨hnow, fun g hg => ?_⟩
        rw [Function.update_self] at hg
        obtain ⟨g₀, -, rfl⟩ := Option.map_eq_some_iff.mp hg
        exact lastActive_stamp g₀ hnow
      · rw [Function.update_of_ne hst] at hseen
        obtain ⟨hone, htag⟩ := h st' seen hseen
        refine ⟨hone, fun g hg => htag g ?_⟩
        rwa [Function.update_of_ne fun heq => hst (asg_inj heq)] at hg
    case isFalse =>
      split
      case isTrue => exact h.updateGroup fun _ => rfl
      case isFalse => exact h

/-- Steps that fit keep the tags. -/
theorem TagsKept.step (h : TagsKept c w) {s : Step} (hfits : Fits c w s) :
    TagsKept c (step c w s) := by
  cases s with
  | reserve r => exact h
  | move id status => exact h
  | connect id pod => exact h
  | change name g =>
    intro st seen hseen
    obtain ⟨hone, htag⟩ := h st seen hseen
    refine ⟨hone, fun g' hg' => ?_⟩
    change Function.update w.groups name g (c.asg st) = some g' at hg'
    by_cases hname : c.asg st = name
    · subst hname
      rw [Function.update_self] at hg'
      obtain ⟨g₀, hg₀, heq⟩ := hfits ⟨st, rfl, Option.isSome_of_eq_some hseen⟩ g' hg'
      exact heq.trans (htag g₀ hg₀)
    · rw [Function.update_of_ne hname] at hg'
      exact htag g' hg'
  | visit v st =>
    change TagsKept c (if st ∈ c.spotList then SpotGroups.visit c w v st else w)
    split
    case isTrue hmem => exact h.visit (hfits hmem)
    case isFalse => exact h

theorem scalesDown_iff : scalesDown c w v st = true ↔
    v.raises = false ∧ ¬ IsListed w v st ∧ isDue c w v st = true := by
  rw [scalesDown, ← hasActive_iff]
  simp [and_assoc]

/-- A group is never scaled to zero while it is needed exactly if needs show. -/
theorem not_isNeeded_iff :
    (scalesDown c w v st = true → ¬ IsNeeded w st) ↔ Shows c w v st := by
  rw [scalesDown_iff, Shows]
  tauto

theorem safe_of_tagsKept (h : TagsKept c w) {s : Step} (hfits : Fits c w s) : Safe c w s := by
  cases s with
  | visit v st =>
    intro hmem hdown
    have hvisit := hfits hmem
    refine ⟨not_isNeeded_iff.mpr hvisit.shows hdown, fun seen hseen => ?_⟩
    obtain ⟨hone, htag⟩ := h st seen hseen
    obtain ⟨-, -, hdue⟩ := scalesDown_iff.mp hdown
    obtain ⟨g, hg, hdue⟩ := (Option.any_eq_true _ _).mp hdue
    have hidle : c.isIdle g v.now = true := (Bool.and_eq_true_iff.mp hdue).2
    have hpositive : ⌊seen⌋ ≠ 0 := by
      have hfloor : 1 ≤ ⌊seen⌋ := Int.le_floor.mpr (by exact_mod_cast hone)
      omega
    have hover : ⌊seen⌋ + c.grace ≤ v.now := by
      rw [Settings.isIdle, htag g hg] at hidle
      have hnot : ¬ v.now - ⌊seen⌋ < c.grace := by simpa [hpositive, Settings.grace] using hidle
      linarith
    exact not_lt.mp fun hlt => hvisit.late seen hseen ⟨hover, hlt⟩
  | _ => trivial

/-- In every state, a visit scales no group to zero that is needed exactly if needs show; and in a
run of steps that fit, every group that is scaled to zero is not needed and was not seen to be for
the grace period. -/
theorem scaleDowns_safe (c : Settings) :
    (∀ w v st, (scalesDown c w v st = true → ¬ IsNeeded w st) ↔ Shows c w v st) ∧
      ∀ (w : World) (run : List Step), (∀ st, w.lastSeen st = none) →
        Along (step c) (Fits c) w run → Along (step c) (Safe c) w run := by
  refine ⟨fun w v st => not_isNeeded_iff, fun w run hnew hfits => ?_⟩
  have hkept : TagsKept c w := fun st seen hseen => by
    rw [hnew] at hseen
    cases hseen
  exact @Along.of_invariant _ _ (step c) (TagsKept c) (Fits c) (Safe c)
    (fun _ _ h hf => h.step hf) (fun _ _ h hf => safe_of_tagsKept h hf) w hkept run hfits

/-! ### What hides a need -/

/-! ### Two runs -/

/-- Queries give all that there is, up to a thousand. -/
def thousand : Paging Reservation where
  size l := min l.length 1000
  bound := 1000
  size_le _ := min_le_right _ _

/-- A look without trouble. -/
def lookAt (now : ℚ) : Visit where
  raises := false
  paging := thousand
  now := now
  stamps := true

/-- One spot type, with a grace period of 25 minutes. -/
def oneSpotType (st : String) : Settings where
  spotGpuTypes := st
  supported := []
  keepaliveMinutes := 25
  asgNamePrefix := "nodes"

/-- One active reservation, and the group that it is on. -/
def oneReservation (gpuType : String) : World where
  reservations := [⟨"r", gpuType, "active", some gpuType, none⟩]
  groups name := if name = "nodes-" ++ gpuType then some ⟨1, []⟩ else none
  lastSeen _ := none

/-- A reservation is seen, ends, and 25 minutes later its group is scaled to zero. -/
def seenAndEnded : List Step :=
  [.visit (lookAt 100) "h200", .move "r" "expired", .visit (lookAt 1600) "h200"]

theorem scaleDowns_safe_seenAndEnded :
    (((seenAndEnded.foldl (step (oneSpotType "h200")) (oneReservation "h200")).groups
        "nodes-h200").map Group.desiredCapacity = some 0) ∧
      Along (step (oneSpotType "h200")) (Safe (oneSpotType "h200")) (oneReservation "h200")
        seenAndEnded := by
  refine ⟨by decide +kernel, (scaleDowns_safe (oneSpotType "h200")).2 _ _ (fun _ => rfl)
    ⟨?_, trivial, ?_, trivial⟩⟩
  · intro _
    have hlisted : IsListed (oneReservation "h200") (lookAt 100) "h200" :=
      hasActive_iff.mp (by decide +kernel)
    exact ⟨fun _ _ _ => hlisted, fun _ _ => ⟨rfl, by decide +kernel, by norm_num [lookAt]⟩, nofun⟩
  · intro _
    refine ⟨?_, ?_, ?_⟩
    · rintro - - ⟨r, hr, hlive, -⟩
      have hstatus : r.status = "expired" := by
        obtain rfl := List.mem_singleton.mp hr
        decide +kernel
      rw [hstatus] at hlive
      exact absurd hlive (by decide)
    · intro _ hlisted
      exact absurd (hasActive_iff.mpr hlisted) (by decide +kernel)
    · intro seen hseen
      have hhundred : seen = 100 := (Option.some.inj hseen).symm
      subst hhundred
      norm_num [lookAt, Settings.grace, oneSpotType]

/-- A reservation is connected to its pod, and with that its record has another type. -/
def connectedAndVisited : List Step :=
  [.connect "r" (some ⟨some "node", some "c7i.8xlarge", []⟩), .visit (lookAt 100) "cpu-x86"]

theorem not_safe : ¬ ∀ (c : Settings) (w : World) (run : List Step),
    (∀ st, w.lastSeen st = none) → Along (step c) (Safe c) w run := by
  intro hall
  obtain ⟨-, hsafe, -⟩ := hall (oneSpotType "cpu-x86") (oneReservation "cpu-x86")
    connectedAndVisited fun _ => rfl
  refine (hsafe (by decide +kernel) (by decide +kernel)).1
    ⟨_, List.mem_singleton_self _, ?_, Or.inl ?_⟩
  · decide +kernel
  · decide +kernel

end CiInfra.GpuDev.SpotGroups
