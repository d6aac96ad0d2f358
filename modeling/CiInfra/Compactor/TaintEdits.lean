import CiInfra.Compactor.Models
import CiInfra.Kube.OptimisticEdit

/-!
# Applying and removing the compactor taint

Both edits read the node, check that its instance-type taint is in place, and send a patch
that the server refuses if the node has changed. Tainting appends to the list of taints;
untainting sends the whole list without the taint.
-/

namespace CiInfra.Compactor

open Kube Interaction VersionedStore

/-- NodePools taint their nodes with `instance-type=<type>:NoSchedule`. -/
def instanceTypeTaintKey : String := "instance-type"

/-- The labels call for the instance-type taint and it is not among the taints. -/
def lacksInstanceTaint (labels : Dict) (taints : List Taint) : Bool :=
  (labels instanceTypeTaintKey).any (· ≠ "") && !taints.any (·.key = instanceTypeTaintKey)

/-- The node misses the instance-type taint that its labels call for. -/
def missesInstanceTaint (n : Node) : Bool := lacksInstanceTaint n.labels n.taints

/-- Whether the node carries a taint of this key. -/
def carriesTaint (taintKey : String) (n : Node) : Bool := n.taints.any (·.key = taintKey)

/-- The dictionary of the compactor's taint. -/
def newTaint (taintKey : String) : TaintDict := ⟨taintKey, "NoSchedule", some "true"⟩

/-- Append one taint, or create the list, provided the node has not changed. -/
def applyTaintPatch (taintKey : String) (node : Node) : Patch :=
  if node.taints ≠ [] then
    .json [.testResourceVersion node.resourceVersion, .addTaint (newTaint taintKey)]
  else .json [.testResourceVersion node.resourceVersion, .addTaints [newTaint taintKey]]

/-- The dictionary sent for a taint that is kept; an empty value is left out. -/
def keptTaint (t : Taint) : TaintDict :=
  ⟨t.key, t.effect, if t.value ≠ "" then some t.value else none⟩

/-- Replace the taints by those of other keys; null if none is left. -/
def removeTaintPatch (taintKey : String) (node : Node) : Patch :=
  let newTaints := (node.taints.filter fun t => t.key ≠ taintKey).map keptTaint
  .mergeTaints node.resourceVersion (if newTaints = [] then none else some newTaints)

/-- Failures are raised unless they are conflicts with these codes and attempts are left. -/
def retryOn (codes : List ℕ) (attempts : ℕ) : Failure → Option (Except Failure Unit)
  | .api code => if code ∈ codes ∧ 0 < attempts then none else some (.error (.api code))
  | .other => some (.error .other)

/-- The edit of `apply_taint`. A node that is tainted already is left alone. -/
def applyTaintEdit (nodeName taintKey : String) : Edit Unit where
  name := nodeName
  inspect node :=
    if carriesTaint taintKey node then .finish ()
    else if missesInstanceTaint node then .wait
    else .send (applyTaintPatch taintKey node)
  onGetFailure := .error
  onPatchFailure := retryOn [409, 422]
  completed := ()
  exhausted := ()

/-- The edit of `remove_taint`. -/
def removeTaintEdit (nodeName taintKey : String) : Edit Unit where
  name := nodeName
  inspect node :=
    if missesInstanceTaint node then .wait else .send (removeTaintPatch taintKey node)
  onGetFailure := .error
  onPatchFailure := retryOn [409]
  completed := ()
  exhausted := ()

/-- Add the NoSchedule taint to a node. -/
def applyTaint (nodeName taintKey : String) (dryRun : Bool) (maxRetries : ℕ := 5) :
    Api (Except Failure Unit) :=
  if dryRun then .done (.ok ()) else (applyTaintEdit nodeName taintKey).attempt maxRetries

/-- Remove the compactor taint from a node. -/
def removeTaint (nodeName taintKey : String) (dryRun : Bool) (maxRetries : ℕ := 3) :
    Api (Except Failure Unit) :=
  if dryRun then .done (.ok ()) else (removeTaintEdit nodeName taintKey).attempt maxRetries

/-! ### Effects of the patches -/

/-- An accepted tainting patch finds the version it was made from. -/
theorem resourceVersion_of_applyTaintPatch {taintKey : String} {node n n' : Node}
    (h : (applyTaintPatch taintKey node).apply n = .ok n') :
    n.resourceVersion = node.resourceVersion := by
  unfold applyTaintPatch at h
  by_contra hne
  split at h <;> simp [Patch.apply, JsonOp.applyAll, JsonOp.apply, hne] at h

/-- Tainting appends one taint. -/
theorem taints_applyTaintPatch {taintKey : String} {n n' : Node}
    (h : (applyTaintPatch taintKey n).apply n = .ok n') :
    n'.taints = n.taints ++ [⟨taintKey, "true", "NoSchedule", none⟩] := by
  unfold applyTaintPatch at h
  split at h
  · rename_i hne
    simp only [Patch.apply, JsonOp.applyAll, JsonOp.apply, if_true, if_neg hne,
      Except.ok.injEq] at h
    exact h ▸ rfl
  · rename_i hnil
    simp only [Patch.apply, JsonOp.applyAll, JsonOp.apply, if_true, Except.ok.injEq] at h
    rw [not_not.mp hnil]
    exact h ▸ rfl

theorem resourceVersion_of_removeTaintPatch {taintKey : String} {node n n' : Node}
    (h : (removeTaintPatch taintKey node).apply n = .ok n') :
    n.resourceVersion = node.resourceVersion := by
  by_contra hne
  simp [removeTaintPatch, Patch.apply, hne] at h

/-- A kept taint comes back without the time it was added. -/
theorem decode_keptTaint (t : Taint) : (keptTaint t).decode = { t with timeAdded := none } := by
  unfold keptTaint TaintDict.decode
  by_cases h : t.value = "" <;> simp [h]

/-- Untainting rebuilds the kept taints without their times. -/
theorem taints_removeTaintPatch {taintKey : String} {n n' : Node}
    (h : (removeTaintPatch taintKey n).apply n = .ok n') :
    n'.taints = (n.taints.filter fun t => t.key ≠ taintKey).map
      fun t => { t with timeAdded := none } := by
  simp only [removeTaintPatch, Patch.apply, if_true, Except.ok.injEq] at h
  rw [← h]
  dsimp only
  split
  · rename_i hnil
    rw [List.map_eq_nil_iff] at hnil
    rw [hnil]
    rfl
  · rw [Option.getD_some, List.map_map]
    exact List.map_congr_left fun t _ => decode_keptTaint t

/-- The rebuilt list is the filtered list exactly if no kept taint has a time. -/
theorem map_timeAdded_eq_self_iff {l : List Taint} :
    (l.map fun t => { t with timeAdded := none }) = l ↔ ∀ t ∈ l, t.timeAdded = none := by
  induction l with
  | nil => simp
  | cons t l ih =>
    rw [List.map_cons, List.cons.injEq, ih, List.forall_mem_cons]
    refine and_congr_left fun _ => ⟨fun h => h ▸ rfl, fun h => ?_⟩
    cases t
    simp_all

/-! ### Among other writers -/

/-- A running edit of the compactor's taint. -/
inductive TaintEdit
  | apply (nodeName taintKey : String) (dryRun : Bool) (maxRetries : ℕ)
  | remove (nodeName taintKey : String) (dryRun : Bool) (maxRetries : ℕ)

namespace TaintEdit

def program : TaintEdit → Api (Except Failure Unit)
  | apply nodeName taintKey dryRun maxRetries => applyTaint nodeName taintKey dryRun maxRetries
  | remove nodeName taintKey dryRun maxRetries => removeTaint nodeName taintKey dryRun maxRetries

def edit : TaintEdit → Edit Unit
  | apply nodeName taintKey _ _ => applyTaintEdit nodeName taintKey
  | remove nodeName taintKey _ _ => removeTaintEdit nodeName taintKey

/-- The patch made from a snapshot. -/
def patch : TaintEdit → Node → Patch
  | apply _ taintKey _ _ => applyTaintPatch taintKey
  | remove _ taintKey _ _ => removeTaintPatch taintKey

/-- What the edit should make of a list of taints: append our taint, or drop our key. -/
def expected : TaintEdit → List Taint → List Taint
  | apply _ taintKey _ _, taints => taints ++ [⟨taintKey, "true", "NoSchedule", none⟩]
  | remove _ taintKey _ _, taints => taints.filter fun t => t.key ≠ taintKey

/-- An untainting edit keeps no taint that records when it was added. -/
def KeepsNoTime : TaintEdit → List Taint → Prop
  | apply _ _ _ _, _ => True
  | remove _ taintKey _ _, taints => ∀ t ∈ taints, t.key ≠ taintKey → t.timeAdded = none

theorem exists_attempt (e : TaintEdit) : ∃ attempts, e.program = e.edit.attempt attempts := by
  cases e with
  | apply nodeName taintKey dryRun maxRetries =>
    cases dryRun
    · exact ⟨maxRetries, rfl⟩
    · exact ⟨0, rfl⟩
  | remove nodeName taintKey dryRun maxRetries =>
    cases dryRun
    · exact ⟨maxRetries, rfl⟩
    · exact ⟨0, rfl⟩

/-- A patch is sent from a snapshot only if that has the instance-type taint it should. -/
theorem of_inspect_send {e : TaintEdit} {node : Node} {p : Patch}
    (h : e.edit.inspect node = .send p) : p = e.patch node ∧ missesInstanceTaint node = false := by
  cases e with
  | apply nodeName taintKey dryRun maxRetries =>
    simp only [edit, applyTaintEdit] at h
    split at h
    · cases h
    split at h
    · cases h
    · cases h
      exact ⟨rfl, by simpa using ‹¬ missesInstanceTaint node = true›⟩
  | remove nodeName taintKey dryRun maxRetries =>
    simp only [edit, removeTaintEdit] at h
    split at h
    · cases h
    · cases h
      exact ⟨rfl, by simpa using ‹¬ missesInstanceTaint node = true›⟩

theorem resourceVersion_of_patch {e : TaintEdit} {node n n' : Node}
    (h : (e.patch node).apply n = .ok n') : n.resourceVersion = node.resourceVersion := by
  cases e with
  | apply => exact resourceVersion_of_applyTaintPatch h
  | remove => exact resourceVersion_of_removeTaintPatch h

theorem taints_patch_iff {e : TaintEdit} {n n' : Node} (h : (e.patch n).apply n = .ok n') :
    n'.taints = e.expected n.taints ↔ e.KeepsNoTime n.taints := by
  cases e with
  | apply =>
    simp only [KeepsNoTime, iff_true]
    exact taints_applyTaintPatch h
  | remove nodeName taintKey =>
    rw [taints_removeTaintPatch h]
    simp [expected, map_timeAdded_eq_self_iff, KeepsNoTime]

end TaintEdit

/-- **Taint edits and the taints of other controllers.** In every state that any number of
taint edits and any other writers can reach, a patch about to be sent comes from a snapshot
that has its instance-type taint; and a patch that is accepted leaves the taints that were
there, edited as it should, exactly if it keeps no taint with a time it was added. -/
theorem taints_of_taintEdits {ι : Type} [DecidableEq ι] {edits : ι → TaintEdit}
    {S T : System ι Op Op.Res (Except Failure Unit) (Store Node)}
    (hinit : ∀ i, S.procs i = (edits i).program) (h : Reachable Answers Store.Evolves S T)
    {i : ι} {name : String} {p : Patch} {next : Except Failure Unit → Api (Except Failure Unit)}
    (hsending : T.procs i = .call (.patchNode name p) next) :
    (∃ node, p = (edits i).patch node ∧ node.name = name ∧ T.state.Seen node ∧
        missesInstanceTaint node = false) ∧
      ∀ n n', T.state.find? name = some n → p.apply n = .ok n' →
        (n'.taints = (edits i).expected n.taints ↔ (edits i).KeepsNoTime n.taints) := by
  have hattempt : ∀ i, ∃ attempts, S.procs i = (edits i).edit.attempt attempts :=
    fun i => hinit i ▸ (edits i).exists_attempt
  obtain ⟨node, hsend, hname, hseen⟩ := Edit.snapshot_of_sending hattempt h hsending
  obtain ⟨rfl, hguard⟩ := TaintEdit.of_inspect_send hsend
  refine ⟨⟨node, rfl, hname, hseen, hguard⟩, fun n n' hfind happly => ?_⟩
  have hversion := TaintEdit.resourceVersion_of_patch happly
  rw [← hname] at hfind
  have heq : n = node := hseen.eq_of_find? hfind hversion
  subst heq
  exact TaintEdit.taints_patch_iff happly

/-- A node that carries one taint, and the compactor's. -/
def taintedNode (taint : Taint) : Node where
  name := "n1"
  resourceVersion := 1
  labels := fun _ => none
  annotations := fun _ => none
  creationTimestamp := none
  taints := [taint, ⟨bareConfig.taintKey, "true", "NoSchedule", none⟩]
  allocatable := ⟨none, none, none⟩

/-- Untainting leaves a taint without a time as it is. -/
theorem taints_of_taintEdits_cordoned :
    ∃ n', (removeTaintPatch bareConfig.taintKey
        (taintedNode ⟨"node.kubernetes.io/unschedulable", "", "NoSchedule", none⟩)).apply
          (taintedNode ⟨"node.kubernetes.io/unschedulable", "", "NoSchedule", none⟩) = .ok n' ∧
      n'.taints = [⟨"node.kubernetes.io/unschedulable", "", "NoSchedule", none⟩] := by
  obtain ⟨T, next, hreach, hstate, hsending⟩ :=
    (removeTaintEdit "n1" bareConfig.taintKey).exists_reachable_sending 2
      (n := taintedNode ⟨"node.kubernetes.io/unschedulable", "", "NoSchedule", none⟩) rfl rfl
  have hinit : ∀ _ : Unit, (removeTaintEdit "n1" bareConfig.taintKey).attempt (2 + 1) =
    (TaintEdit.remove "n1" bareConfig.taintKey false 3).program := fun _ => rfl
  have h := (taints_of_taintEdits hinit hreach hsending).2 _ _
    (hstate ▸ Store.find?_singleton _) rfl
  exact ⟨_, rfl, h.mpr (by simp [TaintEdit.KeepsNoTime, taintedNode])⟩

/-- Untainting takes the time from a NoExecute taint: a `remove_taint` that runs alone gets
to send a patch whose acceptance changes the taint of the node lifecycle controller. -/
theorem removeTaint_drops_timeAdded :
    let n := taintedNode ⟨"node.kubernetes.io/unreachable", "", "NoExecute", some 60⟩
    ∃ T : System Unit Op Op.Res (Except Failure Unit) (Store Node), ∃ p next n',
      Reachable Answers Store.Evolves
        ⟨Store.singleton n, fun _ => removeTaint "n1" bareConfig.taintKey false⟩ T ∧
      T.procs () = .call (.patchNode "n1" p) next ∧ T.state.find? "n1" = some n ∧
      p.apply n = .ok n' ∧
      n'.taints = [⟨"node.kubernetes.io/unreachable", "", "NoExecute", none⟩] ∧
      n'.taints ≠ n.taints.filter fun t => t.key ≠ bareConfig.taintKey := by
  intro n
  obtain ⟨T, next, hreach, hstate, hsending⟩ :=
    (removeTaintEdit "n1" bareConfig.taintKey).exists_reachable_sending 2 (n := n) rfl rfl
  exact ⟨T, _, next, _, hreach, hsending, hstate ▸ Store.find?_singleton n, rfl,
    by decide, by decide⟩

end CiInfra.Compactor
