import CiInfra.Compactor.Matching

/-!
# Startup taints

A new node keeps the startup taints of its node pool until the components that they stand for are
ready. They are registered with the generator of node pools. The compactor looks through them, and
keeps a list of their keys of its own, from which one is missing.
-/

namespace CiInfra.Nodepools

open Kube

/-- What a node pool definition says about its startup taints. -/
structure NodepoolDef where
  extraLabels : Dict

/-- An entry of the registry: the taint, the module that removes it, or `none` for a base component,
and the node pools that have it. -/
structure StartupTaint where
  module : Option String
  key : String
  value : String
  effect : String
  appliesWhen : NodepoolDef → Bool := fun _ => true

/-- `STARTUP_TAINTS`. -/
def startupTaints : List StartupTaint :=
  [{ module := some "cache-enforcer"
     key := "node-init.osdc.io/cache-enforcer"
     value := "true"
     effect := "NoSchedule"
     appliesWhen := fun d => d.extraLabels "osdc.io/runner-class" ≠ some "release" },
    ⟨some "hf-cache", "node-init.osdc.io/hf-cache", "true", "NoSchedule", fun _ => true⟩,
    ⟨none, "node-init.osdc.io/registry-mirror", "true", "NoSchedule", fun _ => true⟩,
    ⟨none, "node-init.osdc.io/perf-tuning", "true", "NoSchedule", fun _ => true⟩,
    ⟨none, "node-init.osdc.io/algif-mitigation", "true", "NoSchedule", fun _ => true⟩,
    ⟨none, "node-init.osdc.io/dirtyfrag-mitigation", "true", "NoSchedule", fun _ => true⟩]

/-- The entry is emitted for the node pool where these modules are enabled. -/
def StartupTaint.emittedFor (enabledModules : List String) (d : NodepoolDef) (t : StartupTaint) :
    Bool :=
  t.module.all (· ∈ enabledModules) && t.appliesWhen d

def StartupTaint.toTaint (t : StartupTaint) : Taint := ⟨t.key, t.value, t.effect, none⟩

/-- The startup taints that `generate_nodepool_yaml` emits. -/
def emittedTaints (enabledModules : List String) (d : NodepoolDef) : List Taint :=
  (startupTaints.filter (·.emittedFor enabledModules d)).map StartupTaint.toTaint

/-- The startup taint for the cache of models. -/
def hfCacheTaint : Taint := ⟨"node-init.osdc.io/hf-cache", "true", "NoSchedule", none⟩

/-- The taint for the cache of models is emitted where its module is enabled. -/
theorem hfCacheTaint_mem_emittedTaints {enabledModules : List String} {d : NodepoolDef} :
    hfCacheTaint ∈ emittedTaints enabledModules d ↔ "hf-cache" ∈ enabledModules := by
  constructor
  · intro h
    obtain ⟨t, ht, heq⟩ := List.mem_map.mp h
    obtain ⟨ht, hemitted⟩ := List.mem_filter.mp ht
    have hmodule : ∀ t ∈ startupTaints, t.toTaint = hfCacheTaint → t.module = some "hf-cache" := by
      decide
    rw [StartupTaint.emittedFor, hmodule t ht heq] at hemitted
    exact of_decide_eq_true (Bool.and_eq_true_iff.mp hemitted).1
  · intro h
    refine List.mem_map.mpr ⟨⟨some "hf-cache", _, _, _, fun _ => true⟩, ?_, rfl⟩
    exact List.mem_filter.mpr ⟨by simp [startupTaints], by simp [StartupTaint.emittedFor, h]⟩

/-- A base component is on every node. -/
theorem emittedTaints_ne_nil (enabledModules : List String) (d : NodepoolDef) :
    emittedTaints enabledModules d ≠ [] := by
  simp [emittedTaints, startupTaints, StartupTaint.emittedFor]

end CiInfra.Nodepools

namespace CiInfra.Compactor

open Kube Nodepools

/-- All other startup taints are ignored. -/
theorem mem_ignoredTaintKeys_of_mem_emittedTaints {enabledModules : List String} {d : NodepoolDef}
    {taint : Taint} (h : taint ∈ emittedTaints enabledModules d) (hne : taint ≠ hfCacheTaint) :
    taint.key ∈ ignoredTaintKeys := by
  obtain ⟨t, ht, rfl⟩ := List.mem_map.mp h
  have hregistered : ∀ t ∈ startupTaints, t.toTaint ≠ hfCacheTaint →
      t.toTaint.key ∈ ignoredTaintKeys := by
    decide
  exact hregistered t (List.mem_filter.mp ht).1 hne

/-- The node with taints added. -/
def NodeState.addTaints (n : NodeState) (taints : List Taint) : NodeState :=
  { n with nodeTaints := n.nodeTaints ++ taints }

section Constraints

variable {spec : PodSpec} {n : NodeState} {added : List Taint}

/-- Added taints matter where they are not ignored, repel and are not tolerated. -/
theorem constraintsHold_addTaints : ConstraintsHold spec (n.addTaints added) ↔
    ConstraintsHold spec n ∧ ∀ taint ∈ added, taint.key ∉ ignoredTaintKeys →
      taint.effect ∈ ["NoSchedule", "NoExecute"] →
        ∃ tol ∈ spec.tolerations, tolerationMatchesTaint tol taint = true := by
  constructor
  · rintro ⟨htaints, hselector, haffinity⟩
    obtain ⟨hold, hnew⟩ := List.forall_mem_append.mp htaints
    exact ⟨⟨hold, hselector, haffinity⟩, hnew⟩
  · rintro ⟨⟨hold, hselector, haffinity⟩, hnew⟩
    exact ⟨List.forall_mem_append.mpr ⟨hold, hnew⟩, hselector, haffinity⟩

/-- Of the startup taints only the one for the cache of models matters. -/
theorem constraintsHold_addTaints_emittedTaints {enabledModules : List String} {d : NodepoolDef} :
    ConstraintsHold spec (n.addTaints (emittedTaints enabledModules d)) ↔
      ConstraintsHold spec n ∧ ("hf-cache" ∈ enabledModules →
        ∃ tol ∈ spec.tolerations, tolerationMatchesTaint tol hfCacheTaint = true) := by
  rw [constraintsHold_addTaints, ← hfCacheTaint_mem_emittedTaints]
  refine and_congr_right fun _ => ?_
  constructor
  · intro h hmem
    exact h hfCacheTaint hmem (by decide) (by decide)
  · intro h taint htaint hkey _
    have heq : taint = hfCacheTaint := by
      by_contra hne
      exact hkey (mem_ignoredTaintKeys_of_mem_emittedTaints htaint hne)
    subst heq
    exact h htaint

end Constraints

/-- The startup taints change nothing for a pod with a specification, exactly if the cache of models
is not enabled, or the pod tolerates its taint, or the pod cannot go to the node anyway. For one
without, they change nothing if the node has a taint already. -/
theorem podConstraintsMatch_addTaints_emittedTaints_iff (pod : Pod) (n : NodeState)
    (enabledModules : List String) (d : NodepoolDef) :
    podConstraintsMatch pod (n.addTaints (emittedTaints enabledModules d)) =
        podConstraintsMatch pod n ↔
      match pod.spec with
      | none => n.nodeTaints ≠ []
      | some spec => "hf-cache" ∉ enabledModules ∨
          (∃ tol ∈ spec.tolerations, tolerationMatchesTaint tol hfCacheTaint = true) ∨
            ¬ ConstraintsHold spec n := by
  cases hspec : pod.spec with
  | none =>
    have hne := emittedTaints_ne_nil enabledModules d
    simp only [podConstraintsMatch, hspec, NodeState.addTaints]
    cases n.nodeTaints with
    | nil => simp [hne]
    | cons taint rest => simp
  | some spec =>
    rw [Bool.eq_iff_iff, podConstraintsMatch_iff hspec, podConstraintsMatch_iff hspec,
      constraintsHold_addTaints_emittedTaints, and_iff_left_iff_imp]
    simp only
    by_cases hhold : ConstraintsHold spec n
    · simp [hhold, imp_iff_not_or]
    · simp [hhold]

/-- A pod that asks for nothing. -/
def plainPod : Pod where
  metadata := ⟨"pod", "default", some 0, none, []⟩
  spec := some ⟨none, [], [], [], [], []⟩
  status := none

/-- Where the cache of models is enabled, a node that becomes ready does not count for it. -/
theorem hfCache_hides_node :
    podConstraintsMatch plainPod (makeNode "n1" 0 false []) = true ∧
      podConstraintsMatch plainPod
        ((makeNode "n1" 0 false []).addTaints (emittedTaints ["hf-cache"] ⟨fun _ => none⟩)) =
          false := by
  decide

end CiInfra.Compactor
