import CiInfra.Lib.Fallible
import Mathlib.Data.Nat.Notation

/-!
# Passes over what was read

A pass reads a listing and then handles what it was given, one item after the other. The listing
may come in pages, of which a careless pass reads the first. What a run does for an item is a
block of its calls: a whole run of the program for that item.
-/

namespace Interaction

open Program

/-- How listings are cut into pages of bounded size. -/
structure Paging (α : Type) where
  /-- How many of the items that are still to come are on the next page. -/
  size : List α → ℕ
  bound : ℕ
  size_le : ∀ l, size l ≤ bound

namespace Paging

variable {α : Type} (paging : Paging α) {l : List α} {a : α}

/-- What is given to a query that does not ask for more. -/
def firstPage (l : List α) : List α := l.take (paging.size l)

/-- A listing that fits on one page is given whole. -/
theorem firstPage_of_fits (h : l.length ≤ paging.size l) : paging.firstPage l = l :=
  List.take_of_length_le h

end Paging

variable {Op : Type} {Res : Op → Type} {ε α β σ : Type}
  {serves : (op : Op) → σ → Res op → σ → Prop} {t t₁ t₂ : List (Served Op Res σ)}

/-- The calls are those of a whole run of the program. -/
def IsRun (serves : (op : Op) → σ → Res op → σ → Prop) (p : Program Op Res α)
    (t : List (Served Op Res σ)) : Prop :=
  ∃ s a s', Exec serves p s t a s'

/-- A block of the calls is a whole run of the program. -/
def RunsIn (serves : (op : Op) → σ → Res op → σ → Prop) (p : Program Op Res α)
    (t : List (Served Op Res σ)) : Prop :=
  ∃ before block after, t = before ++ (block ++ after) ∧ IsRun serves p block

theorem RunsIn.of_exec {p : Program Op Res α} {s s' : σ} {a : α} (h : Exec serves p s t a s') :
    RunsIn serves p t :=
  ⟨[], t, [], by simp, s, a, s', h⟩

theorem RunsIn.append_left {p : Program Op Res α} (h : RunsIn serves p t₁)
    (t₂ : List (Served Op Res σ)) : RunsIn serves p (t₁ ++ t₂) := by
  obtain ⟨before, block, after, rfl, hrun⟩ := h
  exact ⟨before, block, after ++ t₂, by simp, hrun⟩

theorem RunsIn.append_right {p : Program Op Res α} (h : RunsIn serves p t₂)
    (t₁ : List (Served Op Res σ)) : RunsIn serves p (t₁ ++ t₂) := by
  obtain ⟨before, block, after, rfl, hrun⟩ := h
  exact ⟨t₁ ++ before, block, after, by simp, hrun⟩

/-- The calls begin with a block for each item, one after the other. -/
def InTurn (handled : β → List (Served Op Res σ) → Prop) :
    List β → List (Served Op Res σ) → Prop
  | [], _ => True
  | b :: bs, t => ∃ block rest, t = block ++ rest ∧ handled b block ∧ InTurn handled bs rest

namespace Fallible

variable {A : Served Op Res σ → Prop} {s : σ}

/-- Nothing is raised, whatever the answers. -/
def RaisesNothing (p : Fallible Op Res ε α) : Prop :=
  p.Meets (fun _ => True) (fun _ => True) (fun _ => True) fun _ => False

section RaisesNothing

variable {p : Fallible Op Res ε α}

theorem raisesNothing_pure (a : α) : (pure a : Fallible Op Res ε α).RaisesNothing := trivial

/-- Any program meets what is always so. -/
theorem meets_trivial (p : Fallible Op Res ε α) :
    p.Meets (fun _ => True) (fun _ => True) (fun _ => True) fun _ => True :=
  Issues.meets (onlyCalls_of_forall (fun _ => trivial) _)

theorem raisesNothing_logged (p : Fallible Op Res ε Unit) : p.logged.RaisesNothing :=
  Meets.logged (meets_trivial p)

theorem raisesNothing_orElseGive (p : Fallible Op Res ε α) (a : α) :
    (p.orElseGive a).RaisesNothing :=
  Meets.orElseGive (meets_trivial p) trivial

theorem raisesNothing_tryCatch (p : Fallible Op Res ε α) {f : ε → Fallible Op Res ε α}
    (hf : ∀ e, (f e).RaisesNothing) : (tryCatch p f).RaisesNothing :=
  Meets.tryCatch (meets_trivial p) fun e _ => hf e

theorem RaisesNothing.bind (hp : p.RaisesNothing) {f : α → Fallible Op Res ε β}
    (hf : ∀ a, (f a).RaisesNothing) : (p >>= f).RaisesNothing :=
  Meets.bind hp fun a _ => hf a

theorem RaisesNothing.whenever {q : Fallible Op Res ε Unit} {c : Bool} (hq : q.RaisesNothing) :
    (whenever c q).RaisesNothing :=
  Meets.whenever (fun _ => trivial) fun _ => hq

/-- A program that raises nothing runs to its end. -/
theorem RaisesNothing.achieves (hp : p.RaisesNothing) :
    p.Achieves serves A s fun t a s' => Exec serves p.run s t (.ok a) s' := by
  intro t r s' hrun _
  obtain ⟨-, hresult⟩ := hrun.within hp fun _ _ => trivial
  cases r with
  | ok a => exact ⟨a, rfl, hrun⟩
  | error e => exact hresult.elim

end RaisesNothing

/-- A loop over items that raise nothing handles every item. -/
theorem achieves_forM {f : β → Fallible Op Res ε Unit} (hf : ∀ b, (f b).RaisesNothing)
    (bs : List β) (s : σ) :
    (bs.forM f).Achieves serves A s fun t _ _ => ∀ b ∈ bs, RunsIn serves (f b).run t := by
  induction bs generalizing s with
  | nil => exact achieves_pure (by simp)
  | cons b bs ih =>
    refine Achieves.bind (hf b).achieves fun t₁ _ s₁ hrun => (ih s₁).mono fun t₂ _ _ hrest => ?_
    exact List.forall_mem_cons.mpr ⟨(RunsIn.of_exec hrun).append_left t₂,
      fun c hc => (hrest c hc).append_right t₁⟩

end Fallible

end Interaction
