import Mathlib.Data.Rat.Defs
import Mathlib.Data.List.Basic
import Mathlib.Algebra.Order.Ring.Rat

/-!
# Sliding-window peak tracker

Samples of each group's bin-pack minimum, with the monotonic time they were taken at.
A group without samples is a group without an entry.
-/

namespace CiInfra.Compactor

/-- Per-group samples `(timestamp, bin_pack_min_needed)`, oldest first. -/
abbrev PeakHistory := String → List (ℚ × ℤ)

/-- Drop the samples older than the window, for every group. -/
def pruneStalePeakHistory (history : PeakHistory) (windowSeconds : ℤ) (now : ℚ) : PeakHistory :=
  fun k => (history k).filter fun sample => now - windowSeconds ≤ sample.1

/-- The cap on the number of samples kept. -/
def maxEntries (interval windowSeconds : ℤ) : ℤ :=
  max 64 (windowSeconds / max 1 interval + 60)

/-- A group's samples after one more: pruned by age, then to the latest `maxEntries`. -/
def keptSamples (samples : List (ℚ × ℤ)) (currentMin interval windowSeconds : ℤ) (now : ℚ) :
    List (ℚ × ℤ) :=
  let recent := (samples ++ [(now, currentMin)]).filter fun sample => now - windowSeconds ≤ sample.1
  recent.drop (recent.length - (maxEntries interval windowSeconds).toNat)

/-- Append the current bin-pack result, prune by age + length cap, return windowed peak.
`mem_keptSamples_self` is why the maximum exists. -/
def updatePeakHistory (history : PeakHistory) (groupName : String)
    (currentMin interval windowSeconds : ℤ) (now : ℚ) : ℤ × PeakHistory :=
  let kept := keptSamples (history groupName) currentMin interval windowSeconds now
  ((kept.map Prod.snd).max?.getD currentMin, fun k => if k = groupName then kept else history k)

/-- The newest sample is always kept, so the peak is the maximum of a non-empty list. -/
theorem mem_keptSamples_self {samples : List (ℚ × ℤ)} {currentMin interval windowSeconds : ℤ}
    {now : ℚ} (hwindow : 0 ≤ windowSeconds) :
    (now, currentMin) ∈ keptSamples samples currentMin interval windowSeconds now := by
  have hwindow' : (0 : ℚ) ≤ windowSeconds := by exact_mod_cast hwindow
  have hcap : 1 ≤ (maxEntries interval windowSeconds).toNat := by
    unfold maxEntries
    omega
  have hrecent : (samples ++ [(now, currentMin)]).filter
      (fun sample => decide (now - (windowSeconds : ℚ) ≤ sample.1)) =
      samples.filter (fun sample => decide (now - (windowSeconds : ℚ) ≤ sample.1)) ++
        [(now, currentMin)] := by
    simp [hwindow']
  unfold keptSamples
  simp only [hrecent]
  rw [List.drop_append_of_le_length
    (by simp only [List.length_append, List.length_singleton]; omega)]
  simp

end CiInfra.Compactor
