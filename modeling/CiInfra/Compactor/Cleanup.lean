import CiInfra.Compactor.TaintEdits
import CiInfra.Kube.SoloEdit

/-!
# Cleaning up the taints at shutdown

The cleanup goes through the tainted nodes of one listing. A failure to untaint one of
them ends it, and the nodes behind that one keep their taints.
-/

namespace CiInfra.Compactor

open Kube Interaction Interaction.Program VersionedStore

/-- Untaint the named nodes in order; the first failure is raised. -/
def removeTaints (taintKey : String) : List String → Api (Except Failure Unit)
  | [] => .done (.ok ())
  | nodeName :: rest =>
    Api.tryBind (removeTaint nodeName taintKey false) fun _ => removeTaints taintKey rest

/-- Remove compactor taints from all nodes. -/
def cleanupStaleTaints (cfg : Config) : Api (Except Failure Unit) :=
  .call .listNodes fun
    | .error failure => .done (.error failure)
    | .ok nodes =>
      removeTaints cfg.taintKey ((nodes.filter (carriesTaint cfg.taintKey)).map Node.name)

/-! ### One node -/

section OneNode

variable {nodeName taintKey : String} {n : Node} {c : Cluster}

/-- The outcome of `remove_taint` for a node. -/
def removeOutcome (c : Cluster) (taintKey nodeName : String) : Outcome Unit :=
  (removeTaintEdit nodeName taintKey).outcome (c.nodes.find? nodeName) 3 (c.faults nodeName)

theorem run_removeTaint (c : Cluster) (nodeName taintKey : String) :
    (removeTaint nodeName taintKey false).run serve c =
      ((removeOutcome c taintKey nodeName).result,
        c.after nodeName (removeOutcome c taintKey nodeName)) :=
  Edit.run_attempt _ _ _

/-- A node that misses its instance-type taint is not patched. -/
theorem accepted_of_misses (hguard : missesInstanceTaint n = true) (attempts : ℕ)
    (faults : List (Option Failure)) :
    ((removeTaintEdit nodeName taintKey).outcome (some n) attempts faults).accepted = none := by
  induction attempts generalizing faults with
  | zero => rfl
  | succ attempts ih =>
    rw [Edit.outcome]
    split
    · rfl
    · simp only [removeTaintEdit, hguard, if_true]
      exact ih _

/-- Conflicts are retried only while attempts are left. -/
theorem retryOn_eq_none {codes : List ℕ} {attempts : ℕ} {failure : Failure}
    (h : retryOn codes attempts failure = none) : 0 < attempts := by
  cases failure with
  | api code =>
    simp only [retryOn] at h
    split at h
    · exact (‹code ∈ codes ∧ 0 < attempts›).2
    · cases h
  | other => cases h

/-- What is not retried is raised. -/
theorem retryOn_eq_some {codes : List ℕ} {attempts : ℕ} {failure : Failure}
    {r : Except Failure Unit} (h : retryOn codes attempts failure = some r) :
    r = .error failure := by
  cases failure with
  | api code =>
    simp only [retryOn] at h
    split at h <;> cases h
    rfl
  | other =>
    cases h
    rfl

/-- Otherwise, where `remove_taint` completes, its patch has been accepted. -/
theorem accepted_of_completes (hguard : missesInstanceTaint n = false) {attempts : ℕ}
    (hpos : 0 < attempts) (faults : List (Option Failure))
    (hok : ((removeTaintEdit nodeName taintKey).outcome (some n) attempts faults).result = .ok ()) :
    ((removeTaintEdit nodeName taintKey).outcome (some n) attempts faults).accepted =
      some (removeTaintPatch taintKey n) := by
  induction attempts generalizing faults with
  | zero => omega
  | succ attempts ih =>
    have hinspect : (removeTaintEdit nodeName taintKey).inspect n =
        .send (removeTaintPatch taintKey n) := by
      simp [removeTaintEdit, hguard]
    rw [Edit.outcome] at hok ⊢
    cases hfault : nextFault faults with
    | mk fault faults' =>
    cases fault with
    | some failure =>
      simp only [hfault] at hok
      cases hok
    | none =>
      simp only [hfault, hinspect] at hok ⊢
      rcases hanswer : patchAnswer (removeTaintPatch taintKey n) n faults' with
        ⟨failure | _, faults''⟩
      · simp only [hanswer] at hok ⊢
        cases hretry : (removeTaintEdit nodeName taintKey).onPatchFailure attempts failure with
        | none =>
          simp only [hretry] at hok ⊢
          exact ih (retryOn_eq_none hretry) _ hok
        | some result =>
          simp only [hretry, retryOn_eq_some hretry] at hok
          cases hok
      · rfl

theorem carriesTaint_removeTaintPatch (taintKey : String) (n : Node) :
    carriesTaint taintKey ((removeTaintPatch taintKey n).applyTo n) = false := by
  have happly : (removeTaintPatch taintKey n).apply n =
      .ok ((removeTaintPatch taintKey n).applyTo n) := by
    simp [removeTaintPatch, Patch.apply, Patch.applyTo]
  rw [carriesTaint, taints_removeTaintPatch happly]
  simp

/-- Whether the server's node of this name carries the taint. -/
def TaintedOn (c : Cluster) (taintKey nodeName : String) : Prop :=
  (c.nodes.find? nodeName).any (carriesTaint taintKey) = true

instance (c : Cluster) (taintKey nodeName : String) : Decidable (TaintedOn c taintKey nodeName) :=
  inferInstanceAs (Decidable (_ = true))

theorem taintedOn_iff {c : Cluster} {taintKey nodeName : String} :
    TaintedOn c taintKey nodeName ↔
      ∃ n, c.nodes.find? nodeName = some n ∧ carriesTaint taintKey n = true := by
  simp only [TaintedOn, Option.any_eq_true]

theorem taintedOn_iff_content {c : Cluster} {taintKey nodeName : String} :
    TaintedOn c taintKey nodeName ↔ (c.content? nodeName).any (carriesTaint taintKey) = true := by
  rw [TaintedOn, Cluster.content?, Option.any_map]
  rfl

theorem taintedOn_after_iff {α : Type} {o : Outcome α} :
    TaintedOn (c.after nodeName o) taintKey nodeName ↔
      ∃ n, c.nodes.find? nodeName = some n ∧ carriesTaint taintKey (o.applyTo n) = true := by
  rw [taintedOn_iff_content, c.content?_after, Option.any_map, Option.any_eq_true]
  rfl

/-- `remove_taint` that completes leaves the node tainted exactly if its instance-type taint
is missing. -/
theorem taintedOn_removeOutcome_iff (hfind : c.nodes.find? nodeName = some n)
    (htainted : carriesTaint taintKey n = true)
    (hok : (removeOutcome c taintKey nodeName).result = .ok ()) :
    TaintedOn (c.after nodeName (removeOutcome c taintKey nodeName)) taintKey nodeName ↔
      missesInstanceTaint n = true := by
  have hiff : TaintedOn (c.after nodeName (removeOutcome c taintKey nodeName)) taintKey nodeName ↔
      carriesTaint taintKey ((removeOutcome c taintKey nodeName).applyTo n) = true := by
    rw [taintedOn_after_iff, hfind]
    simp
  rw [hiff]
  unfold removeOutcome at hok ⊢
  rw [hfind] at hok ⊢
  unfold Outcome.applyTo
  cases hguard : missesInstanceTaint n with
  | true =>
    rw [accepted_of_misses hguard]
    simpa using htainted
  | false =>
    rw [accepted_of_completes hguard (by omega) _ hok]
    simp [carriesTaint_removeTaintPatch]

end OneNode

/-! ### All nodes -/

section AllNodes

variable {taintKey : String} {c c' : Cluster} {names : List String}

/-- `remove_taint` on this node alone returns without raising. -/
def Completes (c : Cluster) (taintKey nodeName : String) : Prop :=
  ((removeTaint nodeName taintKey false).run serve c).1 = .ok ()

/-- What happens to one node depends on the cluster only through that node and its calls. -/
def AgreeOn (c c' : Cluster) (nodeName : String) : Prop :=
  c'.nodes.find? nodeName = c.nodes.find? nodeName ∧ c'.faults nodeName = c.faults nodeName

theorem AgreeOn.removeOutcome_eq {nodeName : String} (h : AgreeOn c c' nodeName) :
    removeOutcome c' taintKey nodeName = removeOutcome c taintKey nodeName := by
  rw [removeOutcome, removeOutcome, h.1, h.2]

theorem agreeOn_after {α : Type} {nodeName x : String} {o : Outcome α} (hne : x ≠ nodeName) :
    AgreeOn c (c.after nodeName o) x :=
  ⟨Cluster.find?_after_ne hne, Cluster.faults_after_ne hne⟩

theorem run_removeTaints_cons (c : Cluster) (nodeName : String) (rest : List String) :
    ((removeTaints taintKey (nodeName :: rest)).run serve c).2 =
      match (removeOutcome c taintKey nodeName).result with
      | .ok () => ((removeTaints taintKey rest).run serve
          (c.after nodeName (removeOutcome c taintKey nodeName))).2
      | .error _ => c.after nodeName (removeOutcome c taintKey nodeName) := by
  rw [removeTaints, Api.tryBind, run_bind, run_removeTaint]
  dsimp only
  cases (removeOutcome c taintKey nodeName).result with
  | ok _ => rfl
  | error failure => rfl

/-- The cleanup leaves nodes alone that it does not name. -/
theorem agreeOn_removeTaints (c : Cluster) (taintKey : String) {names : List String} {x : String}
    (hx : x ∉ names) : AgreeOn c ((removeTaints taintKey names).run serve c).2 x := by
  induction names generalizing c with
  | nil => exact ⟨rfl, rfl⟩
  | cons nodeName rest ih =>
    simp only [List.mem_cons, not_or] at hx
    have hfirst : AgreeOn c (c.after nodeName (removeOutcome c taintKey nodeName)) x :=
      agreeOn_after hx.1
    rw [run_removeTaints_cons]
    cases (removeOutcome c taintKey nodeName).result with
    | error failure => exact hfirst
    | ok _ =>
      have hrest := ih (c.after nodeName (removeOutcome c taintKey nodeName)) hx.2
      exact ⟨hrest.1.trans hfirst.1, hrest.2.trans hfirst.2⟩

/-- The cleanup reaches a node if every node before it completes; what it then does to the
node is what `remove_taint` alone would do. -/
theorem taintedOn_removeTaints_iff {pre post : List String} {x : String}
    (hnodup : (pre ++ x :: post).Nodup)
    (hpre : ∀ y ∈ pre, (removeOutcome c taintKey y).result = .ok ()) :
    TaintedOn ((removeTaints taintKey (pre ++ x :: post)).run serve c).2 taintKey x ↔
      TaintedOn (c.after x (removeOutcome c taintKey x)) taintKey x := by
  induction pre generalizing c with
  | nil =>
    rw [List.nil_append, run_removeTaints_cons]
    cases (removeOutcome c taintKey x).result with
    | error failure => exact Iff.rfl
    | ok _ =>
      simp only [List.nil_append, List.nodup_cons] at hnodup
      have h := agreeOn_removeTaints (c.after x (removeOutcome c taintKey x)) taintKey hnodup.1
      simp only [TaintedOn, h.1]
  | cons y pre ih =>
    rw [List.cons_append, List.nodup_cons] at hnodup
    have hne : ∀ z ∈ pre ++ x :: post, z ≠ y := fun z hz h => hnodup.1 (h ▸ hz)
    have hsame : ∀ z ∈ pre ++ x :: post,
        removeOutcome (c.after y (removeOutcome c taintKey y)) taintKey z =
          removeOutcome c taintKey z := fun z hz => (agreeOn_after (hne z hz)).removeOutcome_eq
    rw [List.cons_append, run_removeTaints_cons, hpre y (by simp)]
    dsimp only
    rw [ih hnodup.2 fun z hz => by rw [hsame z (by simp [hz])]; exact hpre z (by simp [hz])]
    rw [hsame x (by simp), taintedOn_after_iff, taintedOn_after_iff,
      Cluster.find?_after_ne (hne x (by simp))]

/-- The cleanup does not reach a node behind one that raises. -/
theorem agreeOn_removeTaints_of_raises {pre post : List String} {x y : String}
    (hnodup : (pre ++ x :: post).Nodup) (hy : y ∈ pre)
    (hraises : (removeOutcome c taintKey y).result ≠ .ok ()) :
    AgreeOn c ((removeTaints taintKey (pre ++ x :: post)).run serve c).2 x := by
  induction pre generalizing c with
  | nil => simp at hy
  | cons z pre ih =>
    rw [List.cons_append, List.nodup_cons] at hnodup
    have hne : ∀ w ∈ pre ++ x :: post, w ≠ z := fun w hw h => hnodup.1 (h ▸ hw)
    have hfirst : AgreeOn c (c.after z (removeOutcome c taintKey z)) x :=
      agreeOn_after (hne x (by simp))
    rw [List.cons_append, run_removeTaints_cons]
    cases hresult : (removeOutcome c taintKey z).result with
    | error failure => exact hfirst
    | ok _ =>
      have hy' : y ∈ pre := by
        rcases List.mem_cons.mp hy with rfl | hy
        · exact absurd hresult hraises
        · exact hy
      have hraises' : (removeOutcome (c.after z (removeOutcome c taintKey z)) taintKey y).result ≠
          .ok () := by
        rw [(agreeOn_after (hne y (by simp [hy']))).removeOutcome_eq]
        exact hraises
      have hrest := ih hnodup.2 hy' hraises'
      exact ⟨hrest.1.trans hfirst.1, hrest.2.trans hfirst.2⟩

theorem completes_iff {nodeName : String} :
    Completes c taintKey nodeName ↔ (removeOutcome c taintKey nodeName).result = .ok () := by
  rw [Completes, run_removeTaint]

end AllNodes

/-- The cleanup untaints every node whose own untainting completes. -/
def CleansUp (cfg : Config) (c : Cluster) : Prop :=
  ∀ n ∈ c.nodes.records, carriesTaint cfg.taintKey n = true → Completes c cfg.taintKey n.name →
    ¬ TaintedOn ((cleanupStaleTaints cfg).run serve c).2 cfg.taintKey n.name

/-- **Isolation of failures in the shutdown cleanup.** Whatever calls fail on which nodes,
the cleanup untaints every node whose own untainting completes exactly if no tainted node
in front of such a node raises, and such a node has its instance-type taint. -/
theorem cleanupStaleTaints_cleansUp_iff (cfg : Config) (c : Cluster) :
    CleansUp cfg c ↔ ∀ pre n post,
      c.nodes.records.filter (carriesTaint cfg.taintKey) = pre ++ n :: post →
      Completes c cfg.taintKey n.name →
      missesInstanceTaint n = false ∧ ∀ m ∈ pre, Completes c cfg.taintKey m.name := by
  have hrun : ((cleanupStaleTaints cfg).run serve c).2 = ((removeTaints cfg.taintKey
      ((c.nodes.records.filter (carriesTaint cfg.taintKey)).map Node.name)).run serve c).2 := rfl
  have hsplit : ∀ pre n post,
      c.nodes.records.filter (carriesTaint cfg.taintKey) = pre ++ n :: post →
      c.nodes.find? n.name = some n ∧ carriesTaint cfg.taintKey n = true ∧
      (pre.map Node.name ++ n.name :: post.map Node.name).Nodup ∧
      ((cleanupStaleTaints cfg).run serve c).2 = ((removeTaints cfg.taintKey
        (pre.map Node.name ++ n.name :: post.map Node.name)).run serve c).2 := by
    intro pre n post h
    have hn : n ∈ c.nodes.records.filter (carriesTaint cfg.taintKey) := by simp [h]
    obtain ⟨hmem, htainted⟩ := List.mem_filter.mp hn
    have hnodup : ((c.nodes.records.filter (carriesTaint cfg.taintKey)).map Node.name).Nodup :=
      c.nodes.nodup.sublist (List.filter_sublist.map _)
    rw [h, List.map_append, List.map_cons] at hnodup hrun
    exact ⟨Store.find?_of_mem hmem, htainted, hnodup, hrun⟩
  constructor
  · intro hclean pre n post h hcompletes
    obtain ⟨hfind, htainted, hnodup, hcleanup⟩ := hsplit pre n post h
    have hn := hclean n (Store.mem_of_find? hfind) htainted hcompletes
    rw [hcleanup] at hn
    have hpre : ∀ m ∈ pre, Completes c cfg.taintKey m.name := by
      intro m hm
      by_contra hraises
      rw [completes_iff] at hraises
      have hsame := agreeOn_removeTaints_of_raises hnodup (List.mem_map_of_mem hm) hraises
      exact hn (taintedOn_iff.mpr ⟨n, hsame.1.trans hfind, htainted⟩)
    refine ⟨?_, hpre⟩
    rw [taintedOn_removeTaints_iff hnodup (by simpa [completes_iff] using hpre),
      taintedOn_removeOutcome_iff hfind htainted (completes_iff.mp hcompletes)] at hn
    simpa using hn
  · intro hcond n hn htainted hcompletes
    obtain ⟨pre, post, h⟩ := List.append_of_mem
      (List.mem_filter.mpr ⟨hn, htainted⟩ : n ∈ c.nodes.records.filter (carriesTaint cfg.taintKey))
    obtain ⟨hfind, _, hnodup, hcleanup⟩ := hsplit pre n post h
    obtain ⟨hguard, hpre⟩ := hcond pre n post h hcompletes
    rw [hcleanup, taintedOn_removeTaints_iff hnodup (by simpa [completes_iff] using hpre),
      taintedOn_removeOutcome_iff hfind htainted (completes_iff.mp hcompletes), hguard]
    simp

/-- A node that carries the compactor's taint only. -/
def staleNode (name : String) : Node where
  name := name
  resourceVersion := 1
  labels := fun _ => none
  annotations := fun _ => none
  creationTimestamp := none
  taints := [⟨bareConfig.taintKey, "true", "NoSchedule", none⟩]
  allocatable := ⟨none, none, none⟩

/-- Two tainted nodes, the first of which is deleted between the listing and the read. -/
def deletedFirst : Cluster :=
  { Cluster.quiet ⟨1, [staleNode "n1", staleNode "n2"], by decide, by decide⟩ with
    faults := fun name => if name = "n1" then [some (.api 404)] else [] }

/-- The deletion of the first node leaves the second one tainted for ever, although its
own untainting would complete. -/
theorem deletedFirst_not_cleansUp :
    Completes deletedFirst bareConfig.taintKey "n2" ∧
      TaintedOn ((cleanupStaleTaints bareConfig).run serve deletedFirst).2
        bareConfig.taintKey "n2" ∧
      ¬ CleansUp bareConfig deletedFirst := by
  have hcompletes : Completes deletedFirst bareConfig.taintKey "n2" := by
    rw [Completes]
    decide +kernel
  have htainted : TaintedOn ((cleanupStaleTaints bareConfig).run serve deletedFirst).2
      bareConfig.taintKey "n2" := by decide +kernel
  exact ⟨hcompletes, htainted, fun h => h (staleNode "n2") (by simp [deletedFirst, Cluster.quiet])
    (by decide) hcompletes htainted⟩

end CiInfra.Compactor
