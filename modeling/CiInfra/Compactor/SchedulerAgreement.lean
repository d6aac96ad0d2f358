import CiInfra.Compactor.Matching
import CiInfra.Kube.Scheduling

/-!
# The constraints of a pod and the scheduler

Where the scheduler finds a node suitable for a pod, its constraints match. They also match where a
term of the required affinity is empty, where only its fields exclude the node, and where an integer
is written as Python reads it and not as the scheduler does.
-/

namespace CiInfra.Compactor

open Kube

section Requirements

variable {labels : Dict} {e : NodeSelectorRequirement}

/-- The scheduler reads the requirement as it is written: the operator is one of the six, and what
is compared is one integer of 64 bits on each side. -/
def Readable (labels : Dict) (e : NodeSelectorRequirement) : Prop :=
  match e.operator with
  | "In" | "NotIn" | "Exists" | "DoesNotExist" => True
  | "Gt" | "Lt" => e.bound?.isSome = true ∧ ∀ v ∈ labels e.key, (int64? v).isSome = true
  | _ => False

/-- A toleration matches exactly the taints that it tolerates. -/
theorem tolerationMatchesTaint_iff {tol : Toleration} {taint : Taint} :
    tolerationMatchesTaint tol taint = true ↔ tol.Tolerates taint := by
  have hexists : (if tol.operator.getD "" = "" then "Equal" else tol.operator.getD "") = "Exists" ↔
      tol.operator = some "Exists" := by
    cases tol.operator with
    | none => decide
    | some operator => by_cases h : operator = "" <;> simp [h]
  have hequal : (if tol.operator.getD "" = "" then "Equal" else tol.operator.getD "") = "Equal" ↔
      tol.operator.getD "" = "" ∨ tol.operator = some "Equal" := by
    cases tol.operator with
    | none => decide
    | some operator => by_cases h : operator = "" <;> simp [h]
  rw [tolerationMatchesTaint, Toleration.Tolerates]
  simp only [hexists, hequal]
  by_cases heffect : tol.effect.getD "" = "" ∨ tol.effect.getD "" = taint.effect
  · rw [if_neg (by tauto)]
    by_cases hkey : tol.key.getD "" = ""
    · simp [heffect, hkey]
    · by_cases htaint : tol.key.getD "" = taint.key
      · rw [if_neg hkey, if_neg (not_not.mpr htaint)]
        rw [htaint] at hkey
        by_cases hop : tol.operator = some "Exists"
        · simp [heffect, hkey, htaint, hop]
        · by_cases hop' : tol.operator.getD "" = "" ∨ tol.operator = some "Equal"
          · simp [heffect, hkey, htaint, hop, hop']
          · simp [heffect, htaint, hop, hop']
      · simp [heffect, hkey, htaint]
  · rw [if_pos (by tauto)]
    simp [heffect]

/-- What the scheduler compares is what is compared here. -/
theorem head?_of_bound? {bound : ℤ} (h : e.bound? = some bound) :
    e.values.head?.bind (PythonNumber.int? ·.toList) = some bound := by
  rw [NodeSelectorRequirement.bound?] at h
  split at h
  · rename_i v hvalues
    rw [hvalues]
    exact int?_of_int64? h
  · cases h

/-- Integers are compared as the scheduler does, where it reads them. -/
theorem compareInts_iff (labels : Dict) (e : NodeSelectorRequirement) (r : ℤ → ℤ → Bool) :
    (∃ n bound, (labels e.key).bind int64? = some n ∧ e.bound? = some bound ∧ r n bound = true) ↔
      compareInts r (labels e.key) e.values = true ∧
        e.bound?.isSome = true ∧ ∀ v ∈ labels e.key, (int64? v).isSome = true := by
  cases hlabel : labels e.key with
  | none => simp [compareInts]
  | some v =>
    constructor
    · rintro ⟨n, bound, hn, hbound, hr⟩
      refine ⟨?_, by rw [hbound]; rfl, ?_⟩
      · rw [compareInts, head?_of_bound? hbound, Option.bind_some, int?_of_int64? hn]
        exact hr
      · rintro _ ⟨⟩
        rw [Option.bind_some] at hn
        rw [hn]
        rfl
    · rintro ⟨hcompare, hbound, hv⟩
      obtain ⟨bound, hbound⟩ := Option.isSome_iff_exists.mp hbound
      obtain ⟨n, hn⟩ := Option.isSome_iff_exists.mp (hv v rfl)
      rw [compareInts, head?_of_bound? hbound, Option.bind_some, int?_of_int64? hn] at hcompare
      exact ⟨n, bound, hn, hbound, hcompare⟩

/-- A requirement holds where it matches and the scheduler can read it. -/
theorem holds_iff : e.Holds labels ↔ expressionMatches labels e = true ∧ Readable labels e := by
  unfold NodeSelectorRequirement.Holds expressionMatches Readable
  split
  · simp [*, Option.any_eq_true]
  · simp [*, Option.any_eq_false]
  · simp [*, Option.isSome_iff_ne_none]
  · simp [*]
  · rename_i hop
    have hcompare := compareInts_iff labels e fun a b => b < a
    simp only [decide_eq_true_eq] at hcompare
    simp only [hop, hcompare]
  · rename_i hop
    have hcompare := compareInts_iff labels e fun a b => a < b
    simp only [decide_eq_true_eq] at hcompare
    simp only [hop, hcompare]
  · simp [*]

end Requirements

/-! ### Terms -/

/-- The scheduler reads the term as it is written, and its fields name the node: it has a
requirement, and what it requires of labels is readable. -/
structure TermReadable (name : String) (labels : Dict) (term : NodeSelectorTerm) : Prop where
  nonempty : term.matchExpressions ≠ [] ∨ term.matchFields ≠ []
  expressions : ∀ e ∈ term.matchExpressions, Readable labels e
  fields : ∀ e ∈ term.matchFields, e.Holds (nodeFields name)

/-- The expressions of the term match the node. -/
def ExpressionsMatch (labels : Dict) (term : NodeSelectorTerm) : Prop :=
  allExpressionsMatch term.matchExpressions labels = true

instance {labels : Dict} {term : NodeSelectorTerm} : Decidable (ExpressionsMatch labels term) :=
  inferInstanceAs (Decidable (allExpressionsMatch term.matchExpressions labels = true))

/-- A term matches where its expressions do and the scheduler reads it so. -/
theorem termMatches_iff {name : String} {labels : Dict} {term : NodeSelectorTerm} :
    term.Matches name labels ↔ ExpressionsMatch labels term ∧ TermReadable name labels term := by
  have hexpressions : (∀ e ∈ term.matchExpressions, e.Holds labels) ↔
      ExpressionsMatch labels term ∧ ∀ e ∈ term.matchExpressions, Readable labels e := by
    simp only [ExpressionsMatch, allExpressionsMatch, List.all_eq_true, holds_iff, forall_and]
  constructor
  · rintro ⟨hne, hholds, hfields⟩
    obtain ⟨hmatch, hreadable⟩ := hexpressions.mp hholds
    exact ⟨hmatch, hne, hreadable, hfields⟩
  · rintro ⟨hmatch, hne, hreadable, hfields⟩
    exact ⟨hne, hexpressions.mpr ⟨hmatch, hreadable⟩, hfields⟩

/-! ### Pods -/

/-- The pod tolerates the taints of the node, and its node selector names labels of the node. -/
structure ToleratedAndSelected (spec : PodSpec) (n : NodeState) : Prop where
  taints : ∀ taint ∈ n.nodeTaints, taint.Repels → ∃ tol ∈ spec.tolerations, tol.Tolerates taint
  selector : ∀ pair ∈ spec.nodeSelector, n.labels pair.1 = some pair.2

section Pods

variable {pod : Pod} {spec : PodSpec} {n : NodeState}

/-- The constraints match where taints and selector do, and the expressions of some term if there
are terms. -/
theorem podConstraintsMatch_iff_expressionsMatch (hspec : pod.spec = some spec)
    (hignored : ∀ taint ∈ n.nodeTaints, taint.key ∉ ignoredTaintKeys) :
    podConstraintsMatch pod n = true ↔
      ToleratedAndSelected spec n ∧
        (spec.nodeSelectorTerms ≠ [] →
          ∃ term ∈ spec.nodeSelectorTerms, ExpressionsMatch n.labels term) := by
  have hrepels (taint : Taint) : taint.effect ∈ ["NoSchedule", "NoExecute"] ↔ taint.Repels := by
    simp [Taint.Repels]
  have hterms : anyTermMatches spec.nodeSelectorTerms n.labels = true ↔
      ∃ term ∈ spec.nodeSelectorTerms, ExpressionsMatch n.labels term := List.any_eq_true
  rw [podConstraintsMatch_iff hspec]
  constructor
  · rintro ⟨htaints, hselector, haffinity⟩
    refine ⟨⟨fun taint htaint hrepel => ?_, hselector⟩, fun hne => hterms.mp (haffinity hne)⟩
    obtain ⟨tol, htol, hmatches⟩ :=
      htaints taint htaint (hignored taint htaint) ((hrepels taint).mpr hrepel)
    exact ⟨tol, htol, tolerationMatchesTaint_iff.mp hmatches⟩
  · rintro ⟨⟨htaints, hselector⟩, haffinity⟩
    refine ⟨fun taint htaint _ heffect => ?_, hselector, fun hne => hterms.mpr (haffinity hne)⟩
    obtain ⟨tol, htol, htolerates⟩ := htaints taint htaint ((hrepels taint).mp heffect)
    exact ⟨tol, htol, tolerationMatchesTaint_iff.mpr htolerates⟩

theorem schedulable_iff : spec.Schedulable n.name n.labels n.nodeTaints ↔
      ToleratedAndSelected spec n ∧
        (spec.nodeSelectorTerms ≠ [] → ∃ term ∈ spec.nodeSelectorTerms,
          ExpressionsMatch n.labels term ∧ TermReadable n.name n.labels term) := by
  simp only [← termMatches_iff]
  constructor
  · rintro ⟨htaints, hselector, haffinity⟩
    exact ⟨⟨htaints, hselector⟩, haffinity⟩
  · rintro ⟨⟨htaints, hselector⟩, haffinity⟩
    exact ⟨htaints, hselector, haffinity⟩

end Pods

/-- The constraints agree with the scheduler, exactly if among the terms whose expressions match a
node whose taints and labels suit the pod there is one that the scheduler reads so. -/
theorem podConstraintsMatch_agrees_iff {pod : Pod} {spec : PodSpec} {n : NodeState}
    (hspec : pod.spec = some spec)
    (hignored : ∀ taint ∈ n.nodeTaints, taint.key ∉ ignoredTaintKeys) :
    (podConstraintsMatch pod n = true ↔ spec.Schedulable n.name n.labels n.nodeTaints) ↔
      (ToleratedAndSelected spec n →
        (∃ term ∈ spec.nodeSelectorTerms, ExpressionsMatch n.labels term) →
        ∃ term ∈ spec.nodeSelectorTerms,
          ExpressionsMatch n.labels term ∧ TermReadable n.name n.labels term) := by
  rw [podConstraintsMatch_iff_expressionsMatch hspec hignored, schedulable_iff]
  constructor
  · rintro h hpod ⟨term, hterm, hmatch⟩
    exact (h.mp ⟨hpod, fun _ => ⟨term, hterm, hmatch⟩⟩).2 (List.ne_nil_of_mem hterm)
  · intro h
    refine and_congr_right fun hpod => ?_
    constructor
    · exact fun hterms hne => h hpod (hterms hne)
    · intro hterms hne
      obtain ⟨term, hterm, hmatch, -⟩ := hterms hne
      exact ⟨term, hterm, hmatch⟩

/-- What a pod asks for whose required affinity has one term. -/
def affineSpec (term : NodeSelectorTerm) : PodSpec := ⟨none, [], [], [], [], [term]⟩

def affinePod (term : NodeSelectorTerm) : Pod where
  metadata := ⟨"pod", "default", some 0, none, []⟩
  spec := some (affineSpec term)
  status := none

/-- A node of a zone, without taints. -/
def zonedNode : NodeState :=
  { makeNode "n1" 0 false [] with
    labels := fun key => if key = "topology.kubernetes.io/zone" then some "us-east-2a" else none }

/-- The term of a pod for two zones. -/
def zoneTerm : NodeSelectorTerm :=
  ⟨[⟨"topology.kubernetes.io/zone", "In", ["us-east-2a", "us-east-2b"]⟩], []⟩

/-- For a pod of its zone they agree. -/
theorem podConstraintsMatch_agrees_zonedNode :
    podConstraintsMatch (affinePod zoneTerm) zonedNode = true ↔
      (affineSpec zoneTerm).Schedulable zonedNode.name zonedNode.labels zonedNode.nodeTaints := by
  refine (podConstraintsMatch_agrees_iff rfl (by decide)).mpr fun _ _ => ?_
  refine ⟨zoneTerm, List.mem_singleton_self _, by decide, Or.inl (List.cons_ne_nil _ _), ?_, ?_⟩
  · simp [zoneTerm, Readable]
  · simp [zoneTerm]

/-- The term of a pod that is pinned to another node. -/
def pinTerm : NodeSelectorTerm := ⟨[], [⟨"metadata.name", "In", ["n2"]⟩]⟩

/-- A pod that is pinned to another node matches, and so does a pod with an empty term. -/
theorem pinTerm_not_agrees :
    (podConstraintsMatch (affinePod pinTerm) zonedNode = true ∧
      ¬ (affineSpec pinTerm).Schedulable zonedNode.name zonedNode.labels zonedNode.nodeTaints) ∧
    podConstraintsMatch (affinePod ⟨[], []⟩) zonedNode = true ∧
      ¬ (affineSpec ⟨[], []⟩).Schedulable zonedNode.name zonedNode.labels
        zonedNode.nodeTaints := by
  refine ⟨⟨by decide, fun h => ?_⟩, by decide, fun h => ?_⟩
  · obtain ⟨term, hterm, hmatches⟩ := h.affinity (List.cons_ne_nil _ _)
    obtain rfl := List.mem_singleton.mp hterm
    obtain ⟨name, hname, hmem⟩ := hmatches.fields _ (List.mem_singleton_self _)
    obtain rfl := List.mem_singleton.mp hmem
    exact absurd hname (by decide)
  · obtain ⟨term, hterm, hmatches⟩ := h.affinity (List.cons_ne_nil _ _)
    obtain rfl := List.mem_singleton.mp hterm
    exact hmatches.nonempty.elim (absurd rfl) (absurd rfl)

end CiInfra.Compactor
