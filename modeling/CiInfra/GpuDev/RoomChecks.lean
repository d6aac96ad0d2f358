import CiInfra.GpuDev.Invocations
import Mathlib.Algebra.Order.BigOperators.Group.List
import Mathlib.Algebra.Order.Ring.Nat

/-!
# What the checks of room depend on

Before a reservation is started, the schedulable nodes of its type are listed and the pods on each
of them, twice over. What a check finds is bounded by what it is shown: if every listing shows at
most some capacity, no more than that is found, and if every listing shows at least that, no less.
So a later check finds no room that an earlier one has not found, unless room has appeared in
between.
-/

namespace CiInfra.GpuDev

open Interaction Fallible

/-! ### Capacity -/

/-- The capacity for a type: its schedulable nodes, by their names and what they can give, the room
that is left on each of them, and whether any node of the type is ready. -/
structure Capacity where
  nodes : List (String × ℕ)
  room : String × ℕ → ℕ
  ready : Bool
  room_le : ∀ n, room n ≤ n.2

namespace Capacity

/-- No more room, on the same nodes. -/
instance : LE Capacity where
  le κ μ := κ.nodes = μ.nodes ∧ (∀ n ∈ κ.nodes, κ.room n ≤ μ.room n) ∧
    (κ.ready = true → μ.ready = true)

instance (κ μ : Capacity) : Decidable (κ ≤ μ) :=
  inferInstanceAs (Decidable (κ.nodes = μ.nodes ∧ (∀ n ∈ κ.nodes, κ.room n ≤ μ.room n) ∧
    (κ.ready = true → μ.ready = true)))

instance : Preorder Capacity where
  le_refl κ := ⟨rfl, fun _ _ => le_rfl, id⟩
  le_trans κ μ ν h h' := ⟨h.1.trans h'.1, fun n hn => (h.2.1 n hn).trans (h'.2.1 n (h.1 ▸ hn)),
    fun hready => h'.2.2 (h.2.2 hready)⟩

/-- The room on each node. -/
def rooms (κ : Capacity) : List ℕ := κ.nodes.map κ.room

/-- There is room for a request, in all and on one node; a spot type of CPU instances needs a
ready node instead. -/
def hasRoomFor (cfg : Settings) (gpuType : String) (gpuCount : ℕ) (κ : Capacity) : Bool :=
  gpuCount ≤ κ.rooms.sum && gpuCount ≤ κ.rooms.foldl max 0 &&
    (!(startsWith gpuType "cpu-" && gpuCount = 0 && cfg.isSpotType gpuType) || κ.ready)

end Capacity

/-- The schedulable nodes of a type, by their names and what they can give. -/
def schedulable (nodes : List Node) (gpuType : String) : List (String × ℕ) :=
  (nodes.filter fun n => n.isOfType gpuType && n.isReadyAndSchedulable).map fun n =>
    (n.name, n.allocatableOf (gpuResourceName gpuType))

/-- A node of the type is ready. -/
def anyReady (nodes : List Node) (gpuType : String) : Bool :=
  nodes.any fun n => n.isOfType gpuType && n.ready

/-- What the pods on a node leave of it. -/
def roomLeft (gpuType : String) (n : String × ℕ) (pods : List NamedPod) : ℕ :=
  n.2 - requested (gpuResourceName gpuType) (pods.filter (·.2.isCounted))

/-- The capacity that there is for a type. -/
def World.capacity (w : World) (gpuType : String) : Capacity where
  nodes := schedulable w.nodes gpuType
  room n := roomLeft gpuType n (w.podsOn n.1)
  ready := anyReady w.nodes gpuType
  room_le _ := Nat.sub_le _ _

/-- A capacity, where a call has shown otherwise. -/
def Capacity.seen (gpuType : String) (κ : Capacity) : (op : Op) → op.Res → Capacity
  | .listNodes, .ok nodes =>
    { κ with nodes := schedulable nodes gpuType, ready := anyReady nodes gpuType }
  | .listPodsOn name, .ok pods =>
    { κ with
      room := fun n => if n.1 = name then roomLeft gpuType n pods else κ.room n
      room_le := fun n => by
        split
        · exact Nat.sub_le _ _
        · exact κ.room_le n }
  | _, _ => κ

/-- A call shows no more than there is. -/
theorem Capacity.seen_le {w w' : World} {gpuType : String} {κ : Capacity} {op : Op} {res : op.Res}
    (h : op.Answers w res w') (hw : w.capacity gpuType ≤ κ) : κ.seen gpuType op res ≤ κ := by
  unfold seen
  split
  · have hnodes := Option.some.inj (h.2 _ rfl)
    subst hnodes
    exact ⟨hw.1, fun _ _ => le_rfl, hw.2.2⟩
  · rename_i name pods
    have hpods := Option.some.inj (h.2 _ rfl)
    subst hpods
    refine ⟨rfl, fun n hn => ?_, id⟩
    dsimp only
    split
    · rename_i hname
      subst hname
      exact hw.2.1 n (hw.1.symm ▸ hn)
    · exact le_rfl
  · exact le_rfl

/-- A call that is answered shows no less than there is. -/
theorem Capacity.le_seen {w w' : World} {gpuType : String} {κ : Capacity} {op : Op} {res : op.Res}
    (h : op.Answers w res w') (hw : κ ≤ w.capacity gpuType) : κ ≤ κ.seen gpuType op res := by
  unfold seen
  split
  · have hnodes := Option.some.inj (h.2 _ rfl)
    subst hnodes
    exact ⟨hw.1, fun _ _ => le_rfl, hw.2.2⟩
  · rename_i name pods
    have hpods := Option.some.inj (h.2 _ rfl)
    subst hpods
    refine ⟨rfl, fun n hn => ?_, id⟩
    dsimp only
    split
    · rename_i hname
      subst hname
      exact hw.2.1 n hn
    · exact le_rfl
  · exact le_rfl

/-! ### Bounds -/

/-- The update gives the record the status `preparing`. -/
def Update.prepares (u : Update) : Bool :=
  match u.status with
  | some (.text s) => s = "preparing"
  | _ => false

/-- The call keeps a sweep from starting a reservation that there is room for: a listing fails, the
record of the reservation is not read as queued, or the status is not written. -/
def Op.misleads (r : String) : (op : Op) → op.Res → Bool
  | listNodes, .error _ => true
  | listPodsOn _, .error _ => true
  | getItem id _, .ok item =>
    id = r && (item.getD fun _ => none).text "status" "queued" ≠ "queued"
  | getItem id _, .error _ => id = r
  | updateItem id u, .error _ => id = r && u.prepares
  | _, _ => false

/-- What is assumed of all answers: they show at most, or at least, some capacity. -/
inductive Bound
  | atMost (κ : Capacity)
  | atLeast (κ : Capacity)

namespace Bound

/-- The capacity of a bound. -/
def capacity : Bound → Capacity
  | atMost κ => κ
  | atLeast κ => κ

/-- The answer keeps to the bound; those that show at least some capacity do not mislead. -/
def Admits (gpuType r : String) : Bound → Program.Event Op Op.Res → Prop
  | atMost κ, c => κ.seen gpuType c.1 c.2 ≤ κ
  | atLeast κ, c => κ ≤ κ.seen gpuType c.1 c.2 ∧ c.1.misleads r c.2 = false

/-- A number is bounded by what the capacity gives. -/
def Bounds (k : Bound) (given found : ℕ) : Prop :=
  match k with
  | atMost _ => found ≤ given
  | atLeast _ => given ≤ found

/-- What is found follows from what the capacity gives, or the other way round. -/
def Implies (k : Bound) (given found : Prop) : Prop :=
  match k with
  | atMost _ => found → given
  | atLeast _ => given → found

variable {k : Bound} {gpuType r : String}

theorem nodes_of_admits {nodes : List Node}
    (h : k.Admits gpuType r ⟨.listNodes, .ok nodes⟩) :
    schedulable nodes gpuType = k.capacity.nodes ∧
      k.Implies (k.capacity.ready = true) (anyReady nodes gpuType = true) := by
  cases k with
  | atMost κ => exact ⟨h.1, h.2.2⟩
  | atLeast κ => exact ⟨h.1.1.symm, h.1.2.2⟩

theorem room_of_admits {name : String} {pods : List NamedPod} {n : String × ℕ}
    (h : k.Admits gpuType r ⟨.listPodsOn name, .ok pods⟩) (hn : n ∈ k.capacity.nodes)
    (hname : n.1 = name) : k.Bounds (k.capacity.room n) (roomLeft gpuType n pods) := by
  cases k with
  | atMost κ => simpa [Capacity.seen, hname, Bounds, capacity] using h.2.1 n hn
  | atLeast κ => simpa [Capacity.seen, hname, Bounds, capacity] using h.1.2.1 n hn

/-- A failure to list something shows nothing, as if there were no room. -/
theorem bounds_zero_of_failed {op : Op} {res : op.Res} (h : k.Admits gpuType r ⟨op, res⟩)
    (hfailed : op.misleads r res = true) (given : ℕ) : k.Bounds given 0 := by
  cases k with
  | atMost κ => exact Nat.zero_le _
  | atLeast κ => exact absurd h.2 (by simp [hfailed])

theorem implies_false_of_failed {op : Op} {res : op.Res} (h : k.Admits gpuType r ⟨op, res⟩)
    (hfailed : op.misleads r res = true) (given : Prop) : k.Implies given False := by
  cases k with
  | atMost κ => exact False.elim
  | atLeast κ => exact absurd h.2 (by simp [hfailed])

theorem bounds_sum {given found : List ℕ} (h : List.Forall₂ k.Bounds given found) :
    k.Bounds given.sum found.sum := by
  cases k with
  | atMost κ => exact h.flip.sum_le_sum
  | atLeast κ => exact h.sum_le_sum

theorem bounds_max {given found : List ℕ} (h : List.Forall₂ k.Bounds given found) {m n : ℕ}
    (hmn : k.Bounds m n) : k.Bounds (given.foldl max m) (found.foldl max n) := by
  induction h generalizing m n with
  | nil => exact hmn
  | cons hab _ ih =>
    refine ih ?_
    cases k with
    | atMost κ => exact max_le_max hmn hab
    | atLeast κ => exact max_le_max hmn hab

end Bound

/-! ### The checks -/

section Checks

variable {P : Op → Prop} [AllowsQuiet P] {E : Failure → Prop} {k : Bound} {gpuType r : String}

/-- What is found on a node is bounded by the room on it. -/
theorem meets_getAvailableGpusOnNode {n : Node}
    (hn : (n.name, n.allocatableOf (gpuResourceName gpuType)) ∈ k.capacity.nodes) :
    (getAvailableGpusOnNode gpuType n).Meets (k.Admits gpuType r) P
      (k.Bounds (k.capacity.room (n.name, n.allocatableOf (gpuResourceName gpuType)))) E := by
  refine Meets.tryCatch (E := fun _ => k.Bounds (k.capacity.room
    (n.name, n.allocatableOf (gpuResourceName gpuType))) 0) ?_ fun _ h => meets_pure h
  dsimp only
  split
  · rename_i hnone
    refine meets_pure ?_
    cases k with
    | atMost κ => exact Nat.zero_le _
    | atLeast κ => exact (κ.room_le _).trans hnone.le
  · refine Meets.bind (Q := fun pods => k.Bounds (k.capacity.room
      (n.name, n.allocatableOf (gpuResourceName gpuType)))
        (roomLeft gpuType (n.name, n.allocatableOf (gpuResourceName gpuType)) pods))
      (meets_request (AllowsQuiet.quiet _ rfl) ?_ ?_) fun pods hpods => meets_pure hpods
    · intro res pods hadmits hok
      have hres : res = .ok pods := hok
      subst hres
      exact Bound.room_of_admits hadmits hn rfl
    · intro res e hadmits herror
      have hres : res = .error e := herror
      subst hres
      exact Bound.bounds_zero_of_failed hadmits rfl _

/-- What is found on the nodes is bounded by the room on them; a failure finds nothing. -/
theorem meets_roomOnNodes :
    (roomOnNodes gpuType).Meets (k.Admits gpuType r) P (List.Forall₂ k.Bounds k.capacity.rooms)
      fun _ => ∀ given, k.Bounds given 0 := by
  refine Meets.bind (Q := fun nodes => schedulable nodes gpuType = k.capacity.nodes)
    (meets_request (AllowsQuiet.quiet _ rfl) ?_ ?_) fun nodes hnodes => ?_
  · intro res nodes hadmits hok
    have hres : res = .ok nodes := hok
    subst hres
    exact (Bound.nodes_of_admits hadmits).1
  · intro res e hadmits herror
    have hres : res = .error e := herror
    subst hres
    exact Bound.bounds_zero_of_failed hadmits rfl
  · refine (Meets.collect (R := fun n => k.Bounds (k.capacity.room
      (n.name, n.allocatableOf (gpuResourceName gpuType)))) fun n hn =>
        meets_getAvailableGpusOnNode ?_).mono (fun _ h => h) (fun found hfound => ?_) fun _ h => h
    · exact hnodes ▸ List.mem_map_of_mem hn
    · rw [Capacity.rooms, ← hnodes, schedulable, List.map_map, List.forall₂_map_left_iff]
      exact hfound

theorem meets_checkSchedulableGpusForType :
    (checkSchedulableGpusForType gpuType).Meets (k.Admits gpuType r) P
      (k.Bounds k.capacity.rooms.sum) E :=
  Meets.tryCatch (meets_roomOnNodes.bind fun _ hrooms => meets_pure (Bound.bounds_sum hrooms))
    fun _ h => meets_pure (h _)

theorem meets_checkGpuAvailability :
    (checkGpuAvailability gpuType).Meets (k.Admits gpuType r) P
      (k.Bounds k.capacity.rooms.sum) E :=
  meets_checkSchedulableGpusForType.bind fun _ havailable =>
    (Meets.logged (issues_quiet rfl).meets).bind fun _ _ => meets_pure havailable

theorem meets_checkMaxGpusOnSingleNode :
    (checkMaxGpusOnSingleNode gpuType).Meets (k.Admits gpuType r) P
      (k.Bounds (k.capacity.rooms.foldl max 0)) E :=
  Meets.tryCatch (meets_roomOnNodes.bind fun _ hrooms =>
      meets_pure (Bound.bounds_max hrooms (by cases k <;> exact Nat.le_refl 0)))
    fun _ h => meets_pure (h _)

/-- Whether a node is found to be ready is bounded by whether one is. -/
theorem meets_cpuSpotReady (cfg : Settings) (gpuCount : ℕ) :
    (cpuSpotReady cfg gpuType gpuCount).Meets (k.Admits gpuType r) P
      (fun found => k.Implies ((!(startsWith gpuType "cpu-" && gpuCount = 0 &&
        cfg.isSpotType gpuType) || k.capacity.ready) = true) (found = true)) E := by
  unfold cpuSpotReady
  split
  · rename_i hspot
    refine meets_checkSchedulableGpusForType.bind fun _ _ => ?_
    rw [hspot, Bool.not_true, Bool.false_or]
    refine Meets.tryCatch (E := fun _ => k.Implies (k.capacity.ready = true) False) ?_
      fun _ h => meets_pure (by simpa using h)
    refine Meets.bind (Q := fun nodes => k.Implies (k.capacity.ready = true)
      (anyReady nodes gpuType = true)) (meets_request (AllowsQuiet.quiet _ rfl) ?_ ?_)
      fun nodes hnodes => meets_pure hnodes
    · intro res nodes hadmits hok
      have hres : res = .ok nodes := hok
      subst hres
      exact (Bound.nodes_of_admits hadmits).2
    · intro res e hadmits herror
      have hres : res = .error e := herror
      subst hres
      exact Bound.implies_false_of_failed hadmits rfl _
  · rename_i hspot
    refine meets_pure ?_
    cases k with
    | atMost κ => exact fun _ => by simp [hspot]
    | atLeast κ => exact fun _ => rfl

/-- The checks change nothing and raise nothing. -/
theorem quiet_checkSchedulableGpusForType (gpuType : String) :
    (checkSchedulableGpusForType gpuType).Meets (fun _ => True) P (fun _ => True) E :=
  Meets.orElseGive ((issues_roomOnNodes gpuType).bind fun _ => issues_pure _).meets trivial

theorem quiet_checkGpuAvailability (gpuType : String) :
    (checkGpuAvailability gpuType).Meets (fun _ => True) P (fun _ => True) E :=
  (quiet_checkSchedulableGpusForType gpuType).bind fun _ _ =>
    (Meets.logged (issues_quiet rfl).meets).bind fun _ _ => meets_pure trivial

theorem quiet_checkMaxGpusOnSingleNode (gpuType : String) :
    (checkMaxGpusOnSingleNode gpuType).Meets (fun _ => True) P (fun _ => True) E :=
  Meets.orElseGive ((issues_roomOnNodes gpuType).bind fun _ => issues_pure _).meets trivial

theorem quiet_cpuSpotReady (cfg : Settings) (gpuType : String) (gpuCount : ℕ) :
    (cpuSpotReady cfg gpuType gpuCount).Meets (fun _ => True) P (fun _ => True) E := by
  unfold cpuSpotReady
  split
  · exact (quiet_checkSchedulableGpusForType gpuType).bind fun _ _ =>
      Meets.orElseGive ((issues_quiet rfl).bind fun _ => issues_pure _).meets trivial
  · exact meets_pure trivial

/-- What the three checks come to is bounded by whether there is room. -/
theorem Bound.implies_hasRoomFor {cfg : Settings} {gpuCount available onOneNode : ℕ} {ready : Bool}
    (havailable : k.Bounds k.capacity.rooms.sum available)
    (honOneNode : k.Bounds (k.capacity.rooms.foldl max 0) onOneNode)
    (hready : k.Implies ((!(startsWith gpuType "cpu-" && gpuCount = 0 &&
      cfg.isSpotType gpuType) || k.capacity.ready) = true) (ready = true)) :
    k.Implies (k.capacity.hasRoomFor cfg gpuType gpuCount = true)
      ((gpuCount ≤ available && gpuCount ≤ onOneNode && ready) = true) := by
  simp only [Capacity.hasRoomFor, Bool.and_eq_true, decide_eq_true_eq]
  cases k with
  | atMost κ =>
    rintro ⟨⟨h₁, h₂⟩, h₃⟩
    exact ⟨⟨h₁.trans havailable, h₂.trans honOneNode⟩, hready h₃⟩
  | atLeast κ =>
    rintro ⟨⟨h₁, h₂⟩, h₃⟩
    exact ⟨⟨h₁.trans havailable, h₂.trans honOneNode⟩, hready h₃⟩

end Checks

end CiInfra.GpuDev
