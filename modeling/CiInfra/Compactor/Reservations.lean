import CiInfra.Compactor.Models
import CiInfra.Kube.OptimisticEdit
import Mathlib.Data.Finset.Sort
import Mathlib.Data.String.Basic

/-!
# Capacity reservations

A reserved node carries two annotations: our marker, and Karpenter's do-not-disrupt.
Releasing a node that bears the marker removes both.
-/

namespace CiInfra.Compactor

open Kube Interaction Interaction.Program VersionedStore

/-- Both annotations are set. -/
def reservePatch : List (String × Option String) :=
  [(annotationCapacityReserved, some "true"), (annotationDoNotDisrupt, some "true")]

/-- Explicit nulls delete both annotations. -/
def releasePatch : List (String × Option String) :=
  [(annotationCapacityReserved, none), (annotationDoNotDisrupt, none)]

/-- Whether the node bears our marker. -/
def bearsMarker (n : Node) : Bool := n.annotations annotationCapacityReserved = some "true"

/-- What the answer to the reserving patch is turned into: API errors are logged only. -/
def reservationResult : Except Failure Unit → Except Failure Bool
  | .ok () => .ok true
  | .error (.api _) => .ok false
  | .error .other => .error .other

/-- Add capacity-reservation annotations to a node. -/
def applyReservation (nodeName : String) (dryRun : Bool) : Api (Except Failure Bool) :=
  if dryRun then .done (.ok true)
  else
    .call (.patchNode nodeName (.strategicAnnotations reservePatch)) fun r =>
      .done (reservationResult r)

/-- The edit of `remove_reservation`: a node that disappeared, or that is not owned by us,
is done with. -/
def removeReservationEdit (nodeName : String) : Edit Bool where
  name := nodeName
  inspect node :=
    if bearsMarker node then .send (.mergeAnnotations node.resourceVersion releasePatch)
    else .finish true
  onGetFailure
    | .api 404 => .ok true
    | failure => .error failure
  onPatchFailure _
    | .api 404 => some (.ok true)
    | .api 409 => none
    | failure => some (.error failure)
  completed := true
  exhausted := false

/-- Remove capacity-reservation annotations from a node. -/
def removeReservation (nodeName : String) (dryRun : Bool) (maxRetries : ℕ := 3) :
    Api (Except Failure Bool) :=
  if dryRun then .done (.ok true) else (removeReservationEdit nodeName).attempt maxRetries

/-- Run `f` for each name; collect those for which it returns true. -/
def collectNames (f : String → Api (Except Failure Bool)) :
    List String → Api (Except Failure (List String))
  | [] => .done (.ok [])
  | name :: rest =>
    Api.tryBind (f name) fun done =>
      Api.tryBind (collectNames f rest) fun names =>
        .done (.ok (if done then name :: names else names))

/-- Reconcile capacity-reservation annotations with the desired set; returns the names that
were added and removed. -/
def reconcileReservations (nodeStates : List NodeState) (desiredReserved : Finset String)
    (dryRun : Bool) : Api (Except Failure (List String × List String)) :=
  let currentlyReserved := ((nodeStates.filter NodeState.isReserved).map NodeState.name).toFinset
  Api.tryBind (collectNames (applyReservation · dryRun)
      ((desiredReserved \ currentlyReserved).sort (· ≤ ·))) fun added =>
    Api.tryBind (collectNames (removeReservation · dryRun)
        ((currentlyReserved \ desiredReserved).sort (· ≤ ·))) fun removed =>
      .done (.ok (added, removed))

/-- Remove the reservations of all nodes; failures on one node do not stop the others. -/
def cleanupReservations : Api (Except Failure Unit) :=
  .call .listNodes fun
    | .error failure => .done (.error failure)
    | .ok nodes =>
      (forEach (fun n => (removeReservation n.name false).bind fun _ => .done ())
        (nodes.filter bearsMarker)).bind fun _ => .done (.ok ())

/-! ### The round trip -/

/-- The ways to give a reservation back. -/
inductive Release
  | remove
  | cleanup

/-- Give the node's reservation back, and return `applied`. -/
def releaseAfter (nodeName : String) (release : Release) (applied : Except Failure Bool) :
    Api (Except Failure Bool) :=
  match release with
  | .remove => (removeReservation nodeName false).bind fun _ => .done applied
  | .cleanup => cleanupReservations.bind fun _ => .done applied

/-- Take the node's reservation and later give it back; returns what `apply_reservation`
returned. -/
def reserveAndRelease (nodeName : String) (release : Release) : Api (Except Failure Bool) :=
  (applyReservation nodeName false).bind (releaseAfter nodeName release)

/-- A read, or a patch that deletes our two annotations. -/
def IsRelease (op : Op) : Prop :=
  ∀ name p, op = .patchNode name p → ∃ v, p = .mergeAnnotations v releasePatch

theorem onlyCalls_removeReservation (nodeName : String) (dryRun : Bool) (maxRetries : ℕ) :
    (removeReservation nodeName dryRun maxRetries).OnlyCalls IsRelease := by
  unfold removeReservation
  split
  · trivial
  · refine ((removeReservationEdit nodeName).onlyCalls_attempt maxRetries).mono ?_
    rintro op (rfl | ⟨node, patch, hsend, rfl⟩) name p hp
    · cases hp
    · cases hp
      simp only [removeReservationEdit] at hsend
      split at hsend
      · cases hsend
        exact ⟨_, rfl⟩
      · cases hsend

theorem onlyCalls_cleanupReservations : cleanupReservations.OnlyCalls IsRelease := by
  refine ⟨(fun name p hp => by cases hp), fun r => ?_⟩
  cases r with
  | error failure => trivial
  | ok nodes =>
    refine (onlyCalls_forEach fun n _ => ?_).bind fun _ => trivial
    exact (onlyCalls_removeReservation _ _ _).bind fun _ => trivial

/-- What other writers may do: anything, except that on the named node they touch only
annotations in `K`, and do not bring it back once it is gone. -/
def OtherWriters (nodeName : String) (K : Set String) (s s' : Store Node) : Prop :=
  ∀ n', s'.find? nodeName = some n' →
    ∃ n, s.find? nodeName = some n ∧ ∀ k ∉ K, n'.annotations k = n.annotations k

section RoundTrip

variable {nodeName : String} {K : Set String} {n₀ : Node} {s s' : Store Node}

/-- Nothing outside `K` has happened to the node. -/
def Untouched (nodeName : String) (K : Set String) (n₀ : Node) (s : Store Node) : Prop :=
  ∀ n, s.find? nodeName = some n → ∀ k ∉ K, n.annotations k = n₀.annotations k

/-- The reservation is in force or given back, and nothing else outside `K` has happened. -/
def Balanced (nodeName : String) (K : Set String) (n₀ : Node) (s : Store Node) : Prop :=
  ∀ n, s.find? nodeName = some n →
    (∀ k ∉ K, k ≠ annotationCapacityReserved → k ≠ annotationDoNotDisrupt →
      n.annotations k = n₀.annotations k) ∧
    (n.annotations annotationCapacityReserved = some "true" ∧
        n.annotations annotationDoNotDisrupt = some "true" ∨
      n.annotations annotationCapacityReserved = none ∧
        n.annotations annotationDoNotDisrupt = none)

theorem Untouched.otherWriters (h : Untouched nodeName K n₀ s)
    (hs : OtherWriters nodeName K s s') : Untouched nodeName K n₀ s' := by
  intro n' hn' k hk
  obtain ⟨n, hn, hsame⟩ := hs n' hn'
  exact (hsame k hk).trans (h n hn k hk)

theorem Balanced.otherWriters (hmarker : annotationCapacityReserved ∉ K)
    (hprotect : annotationDoNotDisrupt ∉ K) (h : Balanced nodeName K n₀ s)
    (hs : OtherWriters nodeName K s s') : Balanced nodeName K n₀ s' := by
  intro n' hn'
  obtain ⟨n, hn, hsame⟩ := hs n' hn'
  obtain ⟨hothers, hours⟩ := h n hn
  rw [hsame _ hmarker, hsame _ hprotect]
  exact ⟨fun k hk h₁ h₂ => (hsame k hk).trans (hothers k hk h₁ h₂), hours⟩

theorem annotations_patch_reserve (d : Dict) (k : String) : d.patch reservePatch k =
    if k = annotationDoNotDisrupt then some "true"
    else if k = annotationCapacityReserved then some "true" else d k := rfl

theorem annotations_patch_release (d : Dict) (k : String) : d.patch releasePatch k =
    if k = annotationDoNotDisrupt then none
    else if k = annotationCapacityReserved then none else d k := rfl

/-- Reserving an untouched node. -/
theorem Untouched.reserve (h : Untouched nodeName K n₀ s) :
    Balanced nodeName K n₀ (s.modify nodeName (Patch.strategicAnnotations reservePatch).applyTo
      (Patch.strategicAnnotations reservePatch).name_applyTo) := by
  intro n' hn'
  obtain ⟨n, hn, rfl⟩ := Store.exists_of_find?_modify hn'
  rw [if_pos rfl]
  refine ⟨fun k hk h₁ h₂ => ?_, Or.inl ⟨rfl, rfl⟩⟩
  refine (annotations_patch_reserve n.annotations k).trans ?_
  rw [if_neg h₂, if_neg h₁]
  exact h n hn k hk

/-- Releasing any node. -/
theorem Balanced.release (h : Balanced nodeName K n₀ s) (name : String) (v : ℕ) :
    Balanced nodeName K n₀ (s.modify name (Patch.mergeAnnotations v releasePatch).applyTo
      (Patch.mergeAnnotations v releasePatch).name_applyTo) := by
  intro n' hn'
  obtain ⟨n, hn, rfl⟩ := Store.exists_of_find?_modify hn'
  obtain ⟨hothers, hours⟩ := h n hn
  split
  · simp only [stamp_node, Patch.applyTo, Patch.apply]
    by_cases hv : n.resourceVersion = v
    · simp only [if_pos hv]
      refine ⟨fun k hk h₁ h₂ => ?_, Or.inr ⟨rfl, rfl⟩⟩
      rw [annotations_patch_release, if_neg h₂, if_neg h₁]
      exact hothers k hk h₁ h₂
    · simp only [if_neg hv]
      exact ⟨hothers, hours⟩
  · exact ⟨hothers, hours⟩

theorem Balanced.answers {op : Op} {r : op.Res} (hop : IsRelease op)
    (h : Balanced nodeName K n₀ s) (hr : Answers op s r s') : Balanced nodeName K n₀ s' := by
  cases hr with
  | @accepted name p _ _ _ _ _ _ =>
    obtain ⟨v, rfl⟩ := hop name p rfl
    exact h.release name v
  | _ => exact h

/-- Where the reserving and releasing program is: not begun, or about to release what it
has reserved (`applied` is what it will return). -/
def RoundTripStage (nodeName : String) (release : Release) (K : Set String) (n₀ : Node)
    (s : Store Node) (p : Api (Except Failure Bool)) : Prop :=
  (p = reserveAndRelease nodeName release ∧ Untouched nodeName K n₀ s) ∨
    ∃ applied, p.OnlyCalls IsRelease ∧ p.AllReturn (· = applied) ∧
      (applied = .ok true → Balanced nodeName K n₀ s)

/-- Once the reservation has been answered, only releases remain. -/
theorem onlyCalls_releaseAfter (nodeName : String) (release : Release)
    (applied : Except Failure Bool) :
    (releaseAfter nodeName release applied).OnlyCalls IsRelease ∧
      (releaseAfter nodeName release applied).AllReturn (· = applied) := by
  cases release with
  | remove =>
    exact ⟨(onlyCalls_removeReservation _ _ _).bind fun _ => trivial, AllReturn.bind _ fun _ => rfl⟩
  | cleanup =>
    exact ⟨onlyCalls_cleanupReservations.bind fun _ => trivial, AllReturn.bind _ fun _ => rfl⟩

/-- The answer to the reserving patch decides what is returned; if it is true, the
reservation is in force. -/
theorem RoundTripStage.of_reserve {release : Release} {op : Op}
    {next : op.Res → Api (Except Failure Bool)} {r : op.Res}
    (hp : .call op next = reserveAndRelease nodeName release) (hs : Untouched nodeName K n₀ s)
    (hr : Answers op s r s') : RoundTripStage nodeName release K n₀ s' (next r) := by
  cases hp
  obtain ⟨hcalls, hreturn⟩ :=
    onlyCalls_releaseAfter nodeName release (reservationResult r)
  refine Or.inr ⟨_, hcalls, hreturn, fun happlied => ?_⟩
  cases hr with
  | accepted => exact hs.reserve
  | patchFailed failure => cases failure <;> cases happlied

theorem roundTripStage_of_reachable {release : Release} (hmarker : annotationCapacityReserved ∉ K)
    (hprotect : annotationDoNotDisrupt ∉ K)
    {S T : System Unit Op Op.Res (Except Failure Bool) (Store Node)}
    (hproc : S.procs () = reserveAndRelease nodeName release)
    (hinit : S.state.find? nodeName = some n₀)
    (h : Reachable Answers (OtherWriters nodeName K) S T) :
    RoundTripStage nodeName release K n₀ T.state (T.procs ()) := by
  refine h.induct (I := fun U => RoundTripStage nodeName release K n₀ U.state (U.procs ())) ?_ ?_
  · refine Or.inl ⟨hproc, fun n hn k _ => ?_⟩
    rw [hinit] at hn
    cases hn
    rfl
  rintro U V hU hstep
  cases hstep with
  | env henv =>
    rcases hU with ⟨hp, hs⟩ | ⟨applied, hcalls, hreturn, hs⟩
    · exact Or.inl ⟨hp, hs.otherWriters henv⟩
    · exact Or.inr ⟨applied, hcalls, hreturn,
        fun ha => (hs ha).otherWriters hmarker hprotect henv⟩
  | @proc i op next r s' hi hr =>
    simp only [Function.update_self]
    rcases hU with ⟨hp, hs⟩ | ⟨applied, hcalls, hreturn, hs⟩
    · exact RoundTripStage.of_reserve (hi ▸ hp) hs hr
    · rw [hi] at hcalls hreturn
      exact Or.inr ⟨applied, hcalls.2 r, hreturn r, fun ha => (hs ha).answers hcalls.1 hr⟩

/-- **Giving a reservation back.** Among other writers that leave our two annotations alone,
after `apply_reservation` has returned true and the release has run, the node has its other
annotations as they were exactly if do-not-disrupt was unset before and the marker is gone,
or do-not-disrupt was "true" before and the release did not get through. -/
theorem reserveAndRelease_restores_iff {release : Release}
    (hmarker : annotationCapacityReserved ∉ K) (hprotect : annotationDoNotDisrupt ∉ K)
    {S T : System Unit Op Op.Res (Except Failure Bool) (Store Node)} {n : Node}
    (hproc : S.procs () = reserveAndRelease nodeName release)
    (hinit : S.state.find? nodeName = some n₀)
    (h : Reachable Answers (OtherWriters nodeName K) S T)
    (hdone : T.procs () = .done (.ok true)) (hfinal : T.state.find? nodeName = some n) :
    (∀ k ∉ K, k ≠ annotationCapacityReserved → n.annotations k = n₀.annotations k) ↔
      (n₀.annotations annotationDoNotDisrupt = none ∧
          n.annotations annotationCapacityReserved = none) ∨
        (n₀.annotations annotationDoNotDisrupt = some "true" ∧
          n.annotations annotationCapacityReserved = some "true") := by
  have hbalanced : Balanced nodeName K n₀ T.state := by
    have hstage := roundTripStage_of_reachable hmarker hprotect hproc hinit h
    rw [hdone] at hstage
    rcases hstage with ⟨hp, _⟩ | ⟨applied, _, hreturn, hs⟩
    · cases hp
    · exact hs hreturn.symm
  obtain ⟨hothers, hours⟩ := hbalanced n hfinal
  have hsame : n.annotations annotationDoNotDisrupt = n.annotations annotationCapacityReserved := by
    rcases hours with ⟨h₁, h₂⟩ | ⟨h₁, h₂⟩ <;> rw [h₁, h₂]
  constructor
  · intro hrestored
    have hbefore := (hrestored _ hprotect (by decide)).symm
    rcases hours with ⟨h₁, h₂⟩ | ⟨h₁, h₂⟩
    · exact Or.inr ⟨hbefore.trans h₂, h₁⟩
    · exact Or.inl ⟨hbefore.trans h₂, h₁⟩
  · intro hbefore k hk hne
    by_cases hk' : k = annotationDoNotDisrupt
    · subst hk'
      rcases hbefore with ⟨h₁, h₂⟩ | ⟨h₁, h₂⟩ <;> rw [hsame, h₁, h₂]
    · exact hothers k hk hne hk'

end RoundTrip

/-- A node with the given do-not-disrupt annotation. -/
def protectedNode (protection : Option String) : Node where
  name := "n1"
  resourceVersion := 1
  labels := fun _ => none
  annotations k := if k = annotationDoNotDisrupt then protection else none
  creationTimestamp := none
  taints := []
  allocatable := ⟨none, none, none⟩

theorem onNodes_reserveAndRelease :
    (reserveAndRelease "n1" .remove).OnlyCalls Op.OnNodes := by
  refine ⟨trivial, fun r => OnlyCalls.bind trivial fun _ => OnlyCalls.bind ?_ fun _ => trivial⟩
  refine ((removeReservationEdit "n1").onlyCalls_attempt 3).mono ?_
  rintro op (rfl | ⟨_, _, _, rfl⟩) <;> trivial

/-- The state after an undisturbed round trip. -/
def afterRoundTrip (protection : Option String) : Store Node :=
  ((reserveAndRelease "n1" .remove).run serve
    (Cluster.quiet (Store.singleton (protectedNode protection)))).2.nodes

/-- An undisturbed round trip runs to its end. -/
theorem reachable_afterRoundTrip (protection : Option String)
    (hresult : ((reserveAndRelease "n1" .remove).run serve
      (Cluster.quiet (Store.singleton (protectedNode protection)))).1 = .ok true) :
    Reachable (ι := Unit) Answers (OtherWriters "n1" ∅)
      ⟨Store.singleton (protectedNode protection), fun _ => reserveAndRelease "n1" .remove⟩
      ⟨afterRoundTrip protection, Function.update (fun _ => reserveAndRelease "n1" .remove) ()
        (.done (.ok true))⟩ := by
  have hserve : ∀ op : Op, op.OnNodes → ∀ c : Cluster,
    Answers op c.nodes (serve op c).1 (serve op c).2.nodes := fun _ hop c => answers_serve hop c
  have h := Reachable.of_run (OtherWriters "n1" ∅) hserve onNodes_reserveAndRelease
    (fun _ : Unit => reserveAndRelease "n1" .remove) (i := ()) rfl
    (Cluster.quiet (Store.singleton (protectedNode protection)))
  rw [hresult] at h
  exact h

/-- A node that was not protected is not protected after the round trip. -/
theorem reserveAndRelease_restores_unprotected :
    ∃ n, (afterRoundTrip none).find? "n1" = some n ∧
      n.annotations annotationDoNotDisrupt = none := by
  have hfind : ((afterRoundTrip none).find? "n1").map
      (fun n => n.annotations annotationCapacityReserved) = some none := by decide +kernel
  obtain ⟨n, hn, hmarker⟩ := Option.map_eq_some_iff.mp hfind
  refine ⟨n, hn, ?_⟩
  exact (reserveAndRelease_restores_iff (by simp) (by simp) rfl
    (Store.find?_singleton _) (reachable_afterRoundTrip none (by decide +kernel)) rfl hn).mpr
      (Or.inl ⟨by decide, hmarker⟩) annotationDoNotDisrupt (by simp) (by decide)

/-- A node that an operator had protected is not protected after the round trip. -/
theorem reserveAndRelease_drops_protection :
    ∃ T : System Unit Op Op.Res (Except Failure Bool) (Store Node),
      Reachable Answers (OtherWriters "n1" ∅)
        ⟨Store.singleton (protectedNode (some "true")),
          fun _ => reserveAndRelease "n1" .remove⟩ T ∧
      T.procs () = .done (.ok true) ∧
      (protectedNode (some "true")).annotations annotationCapacityReserved = none ∧
      (protectedNode (some "true")).annotations annotationDoNotDisrupt = some "true" ∧
      ∃ n, T.state.find? "n1" = some n ∧ n.annotations annotationDoNotDisrupt = none := by
  have hfind : ((afterRoundTrip (some "true")).find? "n1").map
      (fun n => n.annotations annotationDoNotDisrupt) = some none := by decide +kernel
  exact ⟨_, reachable_afterRoundTrip (some "true") (by decide +kernel), rfl, by decide, by decide,
    Option.map_eq_some_iff.mp hfind⟩

end CiInfra.Compactor
