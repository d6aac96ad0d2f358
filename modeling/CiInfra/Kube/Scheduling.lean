import CiInfra.Kube.Objects
import CiInfra.Lib.PlainNumbers

/-!
# What the scheduler asks of a node

A pod runs only on nodes whose taints it tolerates, whose labels its node selector names, and which
one of the terms of its required node affinity matches. A term without any requirement matches no
node, and an integer that is compared is a decimal number of 64 bits.
-/

namespace CiInfra.Kube

open PythonNumber

/-! ### Taints -/

/-- A toleration fits a taint of its effect, or any if it names none. It fits a taint of its key if
it asks for the key alone or if the values agree, and any taint if it names no key but asks that
there be one. -/
def Toleration.Tolerates (tol : Toleration) (taint : Taint) : Prop :=
  (tol.effect.getD "" = "" ∨ tol.effect.getD "" = taint.effect) ∧
    (tol.key.getD "" = "" ∧ tol.operator = some "Exists" ∨
      tol.key.getD "" ≠ "" ∧ tol.key.getD "" = taint.key ∧
        (tol.operator = some "Exists" ∨
          (tol.operator.getD "" = "" ∨ tol.operator = some "Equal") ∧
            tol.value.getD "" = taint.value))

/-- The taint keeps pods from the node. -/
def Taint.Repels (taint : Taint) : Prop := taint.effect = "NoSchedule" ∨ taint.effect = "NoExecute"

/-! ### Requirements on labels and fields -/

/-- A decimal integer of 64 bits: a sign or none, and digits. -/
def int64? (s : String) : Option ℤ :=
  let digits := (sign s.toList).2
  let n := (sign s.toList).1 * digitsValue digits
  if digits ≠ [] ∧ AllDigits digits ∧ -2 ^ 63 ≤ n ∧ n < 2 ^ 63 then some n else none

/-- The integer that labels are compared with, which is the only value. -/
def NodeSelectorRequirement.bound? (e : NodeSelectorRequirement) : Option ℤ :=
  match e.values with
  | [v] => int64? v
  | _ => none

/-- A requirement holds of labels, or of fields. -/
def NodeSelectorRequirement.Holds (labels : Dict) (e : NodeSelectorRequirement) : Prop :=
  match e.operator with
  | "In" => ∃ v, labels e.key = some v ∧ v ∈ e.values
  | "NotIn" => ∀ v, labels e.key = some v → v ∉ e.values
  | "Exists" => labels e.key ≠ none
  | "DoesNotExist" => labels e.key = none
  | "Gt" => ∃ n bound, (labels e.key).bind int64? = some n ∧ e.bound? = some bound ∧ bound < n
  | "Lt" => ∃ n bound, (labels e.key).bind int64? = some n ∧ e.bound? = some bound ∧ n < bound
  | _ => False

/-- The fields of a node that a term may name. -/
def nodeFields (name : String) : Dict :=
  fun key => if key = "metadata.name" then some name else none

/-- All requirements of the term hold, and there is one. -/
structure NodeSelectorTerm.Matches (name : String) (labels : Dict) (term : NodeSelectorTerm) :
    Prop where
  nonempty : term.matchExpressions ≠ [] ∨ term.matchFields ≠ []
  expressions : ∀ e ∈ term.matchExpressions, e.Holds labels
  fields : ∀ e ∈ term.matchFields, e.Holds (nodeFields name)

/-- The scheduler finds a node of this name, with these labels and taints, suitable. -/
structure PodSpec.Schedulable (spec : PodSpec) (name : String) (labels : Dict)
    (taints : List Taint) : Prop where
  taints : ∀ taint ∈ taints, taint.Repels → ∃ tol ∈ spec.tolerations, tol.Tolerates taint
  selector : ∀ pair ∈ spec.nodeSelector, labels pair.1 = some pair.2
  affinity : spec.nodeSelectorTerms ≠ [] → ∃ term ∈ spec.nodeSelectorTerms, term.Matches name labels

/-- What is an integer of 64 bits is an integer for Python. -/
theorem int?_of_int64? {s : String} {n : ℤ} (h : int64? s = some n) : int? s.toList = some n := by
  obtain ⟨⟨hne, hdigits, -⟩, hn⟩ := Option.ite_none_right_eq_some.mp h
  rw [← hn]
  exact int?_of_sign hdigits hne

end CiInfra.Kube
