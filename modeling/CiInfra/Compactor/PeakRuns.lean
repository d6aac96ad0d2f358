import CiInfra.Compactor.Packing
import Mathlib.Algebra.Order.Field.Rat
import Mathlib.Order.Bounds.Basic
import Mathlib.Tactic.Linarith

/-!
# Runs of the peak tracker

Samples are taken of one group after the other, and the histories of all groups are pruned now and
then. The peak of a group is the maximum of the samples that lie in its window, as long as the
samples of a group are at least `interval` seconds apart: then there are never so many of them in a
window that the cap drops one.
-/

namespace CiInfra.Compactor

open Kube

/-- A call of the peak tracker, at a reading of the clock. -/
inductive PeakCall
  | prune (now : ℚ)
  | update (groupName : String) (currentMin : ℤ) (now : ℚ)

namespace PeakCall

def now : PeakCall → ℚ
  | prune now => now
  | update _ _ now => now

/-- What the call makes of the histories. -/
def apply (interval windowSeconds : ℤ) (history : PeakHistory) : PeakCall → PeakHistory
  | prune now => pruneStalePeakHistory history windowSeconds now
  | update groupName currentMin now =>
    (updatePeakHistory history groupName currentMin interval windowSeconds now).2

/-- The sample of the group that the call takes, if it takes one. -/
def sampleOf (groupName : String) : PeakCall → Option (ℚ × ℤ)
  | prune _ => none
  | update g currentMin now => if g = groupName then some (now, currentMin) else none

end PeakCall

/-- The histories after some calls, the latest first. -/
def PeakHistory.after (interval windowSeconds : ℤ) (history : PeakHistory) :
    List PeakCall → PeakHistory
  | [] => history
  | c :: past => c.apply interval windowSeconds (after interval windowSeconds history past)

/-- The samples of the group that the calls have taken, the oldest first. -/
def samplesOf (groupName : String) (calls : List PeakCall) : List (ℚ × ℤ) :=
  (calls.filterMap (PeakCall.sampleOf groupName)).reverse

/-- Samples that are apart by some time. -/
def Spaced (δ : ℚ) (samples : List (ℚ × ℤ)) : Prop := samples.Pairwise fun s s' => s.1 + δ ≤ s'.1

/-- The clock does not go back, and the samples of a group are at least `interval` seconds apart. -/
structure Paced (interval : ℤ) (calls : List PeakCall) : Prop where
  mono : calls.Pairwise fun later earlier => earlier.now ≤ later.now
  spaced : ∀ groupName, Spaced interval (samplesOf groupName calls)

/-! ### How many samples there are in a window -/

/-- Samples that are apart by some time take up that time for each but the first. -/
theorem Spaced.length_mul_le {δ lo hi : ℚ} {samples : List (ℚ × ℤ)} (hspaced : Spaced δ samples)
    (hwithin : ∀ s ∈ samples, lo ≤ s.1 ∧ s.1 ≤ hi) (hne : samples ≠ []) :
    (samples.length - 1 : ℚ) * δ ≤ hi - lo := by
  induction samples generalizing lo with
  | nil => exact absurd rfl hne
  | cons s rest ih =>
    obtain ⟨hhead, hrest⟩ := List.pairwise_cons.mp hspaced
    obtain ⟨hlo, hhi⟩ := hwithin s List.mem_cons_self
    cases rest with
    | nil => simpa using hlo.trans hhi
    | cons s' rest =>
      have hrestWithin : ∀ x ∈ s' :: rest, s.1 + δ ≤ x.1 ∧ x.1 ≤ hi :=
        fun x hx => ⟨hhead x hx, (hwithin x (List.mem_cons_of_mem _ hx)).2⟩
      have htail := ih hrest hrestWithin (by simp)
      simp only [List.length_cons, Nat.cast_add, Nat.cast_one] at htail ⊢
      linarith

/-- In a window there is room for no more samples than are kept. -/
theorem Spaced.length_le_maxEntries {interval windowSeconds : ℤ} {samples : List (ℚ × ℤ)}
    (hspaced : Spaced interval samples) (hinterval : 1 ≤ interval) {now : ℚ}
    (hwithin : ∀ s ∈ samples, now - windowSeconds ≤ s.1 ∧ s.1 ≤ now) :
    samples.length ≤ (maxEntries interval windowSeconds).toNat := by
  by_cases hne : samples = []
  · simp [hne]
  have hroom := hspaced.length_mul_le hwithin hne
  have hint : ((samples.length : ℤ) - 1) * interval ≤ windowSeconds := by
    have hcast : (((samples.length : ℤ) - 1 : ℤ) : ℚ) * interval ≤ windowSeconds := by
      push_cast
      linarith
    exact_mod_cast hcast
  have hdiv : (samples.length : ℤ) - 1 ≤ windowSeconds / interval :=
    (Int.le_ediv_iff_mul_le (by omega)).mpr hint
  rw [maxEntries, max_eq_right hinterval]
  omega

/-! ### What the histories hold -/

/-- The samples in the window that ends at `now`. -/
def inWindow (windowSeconds : ℤ) (now : ℚ) (samples : List (ℚ × ℤ)) : List (ℚ × ℤ) :=
  samples.filter fun s => now - windowSeconds ≤ s.1

/-- The history of a group holds its samples from some time on, and all that lie in the window. -/
def Tracks (windowSeconds : ℤ) (now : ℚ) (history samples : List (ℚ × ℤ)) : Prop :=
  ∃ cutoff ≤ now - windowSeconds, history = samples.filter fun s => cutoff ≤ s.1

section Tracks

variable {interval windowSeconds currentMin : ℤ} {now now' : ℚ} {history samples : List (ℚ × ℤ)}

theorem Tracks.mono (h : Tracks windowSeconds now history samples) (hnow : now ≤ now') :
    Tracks windowSeconds now' history samples := by
  obtain ⟨cutoff, hcutoff, hhistory⟩ := h
  exact ⟨cutoff, by linarith, hhistory⟩

/-- What is in the window of the history is what is in the window. -/
theorem Tracks.inWindow_eq (h : Tracks windowSeconds now history samples) :
    inWindow windowSeconds now history = inWindow windowSeconds now samples := by
  obtain ⟨cutoff, hcutoff, rfl⟩ := h
  rw [inWindow, inWindow, List.filter_filter]
  refine List.filter_congr fun s _ => ?_
  have : now - windowSeconds ≤ s.1 → cutoff ≤ s.1 := hcutoff.trans
  grind

/-- A sample more, and what is kept is what is in the window: the cap drops nothing. -/
theorem Tracks.keptSamples_eq (h : Tracks windowSeconds now history samples)
    (hinterval : 1 ≤ interval)
    (hspaced : Spaced interval (samples ++ [(now, currentMin)]))
    (hpast : ∀ s ∈ samples, s.1 ≤ now) :
    keptSamples history currentMin interval windowSeconds now =
      inWindow windowSeconds now (samples ++ [(now, currentMin)]) := by
  have hrecent : (history ++ [(now, currentMin)]).filter
      (fun s => decide (now - (windowSeconds : ℚ) ≤ s.1)) =
        inWindow windowSeconds now (samples ++ [(now, currentMin)]) := by
    rw [inWindow, List.filter_append, List.filter_append]
    exact congrArg (· ++ _) h.inWindow_eq
  have hfew : (inWindow windowSeconds now (samples ++ [(now, currentMin)])).length ≤
      (maxEntries interval windowSeconds).toNat := by
    have hkept : Spaced interval (inWindow windowSeconds now (samples ++ [(now, currentMin)])) :=
      hspaced.sublist List.filter_sublist
    have hwithin : ∀ s ∈ inWindow windowSeconds now (samples ++ [(now, currentMin)]),
        now - windowSeconds ≤ s.1 ∧ s.1 ≤ now := by
      intro s hs
      obtain ⟨hmem, hrecent⟩ := List.mem_filter.mp hs
      refine ⟨of_decide_eq_true hrecent, ?_⟩
      rcases List.mem_append.mp hmem with hmem | hmem
      · exact hpast s hmem
      · exact (List.mem_singleton.mp hmem) ▸ le_rfl
    exact hkept.length_le_maxEntries hinterval hwithin
  simp only [keptSamples, hrecent]
  rw [Nat.sub_eq_zero_of_le hfew, List.drop_zero]

theorem updatePeakHistory_self (history : PeakHistory) (groupName : String) :
    (updatePeakHistory history groupName currentMin interval windowSeconds now).2 groupName =
      keptSamples (history groupName) currentMin interval windowSeconds now := if_pos rfl

theorem updatePeakHistory_of_ne (history : PeakHistory) {groupName g : String}
    (hg : groupName ≠ g) :
    (updatePeakHistory history g currentMin interval windowSeconds now).2 groupName =
      history groupName := if_neg hg

/-- The peak is the maximum of the samples that are kept. -/
theorem isGreatest_updatePeakHistory (hwindow : 0 ≤ windowSeconds) (history : PeakHistory)
    (groupName : String) :
    IsGreatest
      {v | ∃ t, (t, v) ∈ keptSamples (history groupName) currentMin interval windowSeconds now}
      (updatePeakHistory history groupName currentMin interval windowSeconds now).1 := by
  have hself : (now, currentMin) ∈
      keptSamples (history groupName) currentMin interval windowSeconds now :=
    mem_keptSamples_self hwindow
  rw [updatePeakHistory]
  generalize keptSamples (history groupName) currentMin interval windowSeconds now = kept at hself ⊢
  cases hmax : (kept.map Prod.snd).max? with
  | none =>
    rw [List.max?_eq_none_iff, List.map_eq_nil_iff] at hmax
    exact absurd hself (hmax ▸ List.not_mem_nil)
  | some peak =>
    obtain ⟨hmem, hle⟩ := List.max?_eq_some_iff.mp hmax
    obtain ⟨s, hs, rfl⟩ := List.mem_map.mp hmem
    exact ⟨⟨s.1, hs⟩, fun v hv => by
      obtain ⟨t, ht⟩ := hv
      exact hle v (List.mem_map.mpr ⟨(t, v), ht, rfl⟩)⟩

end Tracks

/-! ### Runs -/

section Runs

variable {interval windowSeconds currentMin : ℤ} {now : ℚ} {past calls : List PeakCall}
  {groupName : String}

theorem samplesOf_update :
    samplesOf groupName (.update groupName currentMin now :: past) =
      samplesOf groupName past ++ [(now, currentMin)] := by
  simp [samplesOf, PeakCall.sampleOf]

theorem samplesOf_update_of_ne {g : String} (hg : g ≠ groupName) :
    samplesOf groupName (.update g currentMin now :: past) = samplesOf groupName past := by
  simp [samplesOf, PeakCall.sampleOf, hg]

theorem samplesOf_prune : samplesOf groupName (.prune now :: past) = samplesOf groupName past := rfl

/-- A sample was taken when the clock read its time. -/
theorem le_of_mem_samplesOf (hnow : ∀ c ∈ calls, c.now ≤ now) :
    ∀ s ∈ samplesOf groupName calls, s.1 ≤ now := by
  intro s hs
  obtain ⟨c, hc, hsample⟩ := List.mem_filterMap.mp (List.mem_reverse.mp hs)
  cases c with
  | prune t => cases hsample
  | update g currentMin t =>
    obtain ⟨-, hsample⟩ := Option.ite_none_right_eq_some.mp hsample
    cases hsample
    exact hnow _ hc

theorem Paced.tail {c : PeakCall} (h : Paced interval (c :: past)) : Paced interval past where
  mono := (List.pairwise_cons.mp h.mono).2
  spaced groupName := by
    refine (h.spaced groupName).sublist ?_
    exact List.reverse_sublist.mpr ((List.sublist_cons_self c past).filterMap _)

theorem Paced.le_now {c : PeakCall} (h : Paced interval (c :: past)) : ∀ d ∈ past, d.now ≤ c.now :=
  (List.pairwise_cons.mp h.mono).1

/-- The part of a run up to a call. -/
theorem Paced.earlier {later : List PeakCall} (h : Paced interval (later ++ past)) :
    Paced interval past := by
  induction later with
  | nil => exact h
  | cons c later ih => exact ih h.tail

/-- The histories of all groups hold what is in the window. -/
theorem tracks_after (hinterval : 1 ≤ interval) (hpaced : Paced interval calls)
    (hnow : ∀ c ∈ calls, c.now ≤ now) (groupName : String) :
    Tracks windowSeconds now
      (PeakHistory.after interval windowSeconds (fun _ => []) calls groupName)
      (samplesOf groupName calls) := by
  induction calls generalizing now with
  | nil => exact ⟨now - windowSeconds, le_rfl, rfl⟩
  | cons c past ih =>
    have hpast := ih hpaced.tail hpaced.le_now
    refine Tracks.mono ?_ (hnow c List.mem_cons_self)
    cases c with
    | prune t =>
      rw [samplesOf_prune]
      have hkept := hpast.inWindow_eq
      exact ⟨t - windowSeconds, le_rfl, hkept⟩
    | update g currentMin t =>
      by_cases hg : g = groupName
      · subst hg
        have hspaced := hpaced.spaced g
        rw [samplesOf_update] at hspaced ⊢
        have hkept := hpast.keptSamples_eq hinterval hspaced (le_of_mem_samplesOf hpaced.le_now)
        refine ⟨t - windowSeconds, le_rfl, ?_⟩
        exact (updatePeakHistory_self _ g).trans hkept
      · rw [samplesOf_update_of_ne hg]
        rw [PeakHistory.after, PeakCall.apply, updatePeakHistory_of_ne _ (Ne.symm hg)]
        exact hpast

end Runs

/-- The calls of a call of `compute_taints`, the latest first: all histories are pruned, and then
every group is sampled. -/
def cycleCalls (cfg : Config) (now mono : ℚ) (pendingPods : List Pod)
    (groups : List (String × List NodeState)) : List PeakCall :=
  (groups.map fun group => .update group.1
    (binPackMinNodes (packedPods cfg now pendingPods group.2) group.2) mono).reverse ++
    [.prune mono]

theorem PeakHistory.after_append {interval windowSeconds : ℤ} (history : PeakHistory)
    (later past : List PeakCall) :
    history.after interval windowSeconds (later ++ past) =
      (history.after interval windowSeconds past).after interval windowSeconds later := by
  induction later with
  | nil => rfl
  | cons c later ih => exact congrArg (PeakCall.apply interval windowSeconds · c) ih

theorem peakHistory_planGroups (cfg : Config) (now mono : ℚ) (pendingPods : List Pod)
    (history : PeakHistory) (groups : List (String × List NodeState)) :
    (planGroups cfg now mono pendingPods (some history) groups).2 =
      some (history.after cfg.interval cfg.peakWindowSeconds (groups.map fun group =>
        .update group.1 (binPackMinNodes (packedPods cfg now pendingPods group.2) group.2)
          mono).reverse) := by
  induction groups generalizing history with
  | nil => rfl
  | cons group rest ih =>
    rw [List.map_cons, List.reverse_cons, PeakHistory.after_append]
    exact ih _

/-- What `compute_taints` makes of the histories. -/
theorem peakHistory_computeTaints (nodeStates : NodeMap) (cfg : Config) (reserved : Finset String)
    (groupKey : NodeState → String) (history : PeakHistory) (pendingPods : List Pod)
    (now mono : ℚ) :
    (computeTaints nodeStates cfg reserved groupKey (some history) pendingPods now mono).2 =
      some (history.after cfg.interval cfg.peakWindowSeconds
        (if nodeStates.values.isEmpty then []
        else cycleCalls cfg now mono pendingPods
          (Grouping.groupBy groupKey nodeStates.values))) := by
  rw [computeTaints]
  split
  · rfl
  · rw [cycleCalls, PeakHistory.after_append]
    exact peakHistory_planGroups cfg now mono pendingPods _ _

/-- Every peak of a run is the maximum of the samples in its window. The cap drops none of them,
and pruning leaves those of every group. -/
structure ExactPeaks (interval windowSeconds : ℤ) (calls : List PeakCall) : Prop where
  peak : ∀ later groupName currentMin now past,
    calls = later ++ .update groupName currentMin now :: past →
      IsGreatest
        {v | ∃ t, (t, v) ∈ samplesOf groupName (.update groupName currentMin now :: past) ∧
          now - windowSeconds ≤ t ∧ t ≤ now}
        (updatePeakHistory (PeakHistory.after interval windowSeconds (fun _ => []) past) groupName
          currentMin interval windowSeconds now).1
  cap : ∀ later groupName currentMin now past,
    calls = later ++ .update groupName currentMin now :: past →
      ∀ s ∈ samplesOf groupName (.update groupName currentMin now :: past),
        now - windowSeconds ≤ s.1 →
          s ∈ PeakHistory.after interval windowSeconds (fun _ => [])
            (.update groupName currentMin now :: past) groupName
  prune : ∀ later now past, calls = later ++ .prune now :: past →
    ∀ groupName, ∀ s ∈ samplesOf groupName past, now - windowSeconds ≤ s.1 →
      s ∈ PeakHistory.after interval windowSeconds (fun _ => []) (.prune now :: past) groupName

/-- If the samples of a group are at least `interval` seconds apart, all peaks are exact. -/
theorem peaks_exact {interval windowSeconds : ℤ} (hinterval : 1 ≤ interval)
    (hwindow : 0 ≤ windowSeconds) {calls : List PeakCall} (hpaced : Paced interval calls) :
    ExactPeaks interval windowSeconds calls where
  peak later groupName currentMin now past hsplit := by
    subst hsplit
    have hpaced := hpaced.earlier
    have hspaced := hpaced.spaced groupName
    rw [samplesOf_update] at hspaced ⊢
    have hpast : ∀ s ∈ samplesOf groupName past, s.1 ≤ now := le_of_mem_samplesOf hpaced.le_now
    have hgreatest : IsGreatest _
        (updatePeakHistory (PeakHistory.after interval windowSeconds (fun _ => []) past) groupName
          currentMin interval windowSeconds now).1 :=
      isGreatest_updatePeakHistory hwindow _ groupName
    have htracks : Tracks windowSeconds now
        (PeakHistory.after interval windowSeconds (fun _ => []) past groupName)
        (samplesOf groupName past) :=
      tracks_after hinterval hpaced.tail hpaced.le_now groupName
    rw [htracks.keptSamples_eq hinterval hspaced hpast] at hgreatest
    convert hgreatest using 3 with v
    refine exists_congr fun t => ?_
    rw [inWindow, List.mem_filter, decide_eq_true_iff]
    refine and_congr_right fun hmem => and_iff_left ?_
    rcases List.mem_append.mp hmem with hmem | hmem
    · exact hpast _ hmem
    · exact (congrArg Prod.fst (List.mem_singleton.mp hmem)).le
  cap later groupName currentMin now past hsplit s hs hrecent := by
    subst hsplit
    have hpaced := hpaced.earlier
    obtain ⟨cutoff, hcutoff, hhistory⟩ : Tracks windowSeconds now _ _ :=
      tracks_after hinterval hpaced (List.forall_mem_cons.mpr ⟨le_rfl, hpaced.le_now⟩) groupName
    rw [hhistory]
    exact List.mem_filter.mpr ⟨hs, decide_eq_true (hcutoff.trans hrecent)⟩
  prune later now past hsplit groupName s hs hrecent := by
    subst hsplit
    have hpaced := hpaced.earlier
    obtain ⟨cutoff, hcutoff, hhistory⟩ : Tracks windowSeconds now _ _ :=
      tracks_after hinterval hpaced (List.forall_mem_cons.mpr ⟨le_rfl, hpaced.le_now⟩) groupName
    rw [hhistory]
    exact List.mem_filter.mpr ⟨hs, decide_eq_true (hcutoff.trans hrecent)⟩

/-- Two cycles over two groups, the second of which is sampled only once. -/
def twoCycles : List PeakCall :=
  [.update "b" 4 41, .update "a" 2 40, .prune 40, .update "a" 5 20, .prune 20]

theorem peaks_exact_twoCycles : ExactPeaks 20 2700 twoCycles := by
  refine peaks_exact (by decide) (by decide) ⟨by decide +kernel, fun groupName => ?_⟩
  by_cases ha : "a" = groupName
  · subst ha
    unfold Spaced
    decide +kernel
  · by_cases hb : "b" = groupName
    · subst hb
      unfold Spaced
      decide +kernel
    · rw [twoCycles, samplesOf_update_of_ne hb, samplesOf_update_of_ne ha, samplesOf_prune,
        samplesOf_update_of_ne ha, samplesOf_prune]
      exact List.Pairwise.nil

end CiInfra.Compactor
