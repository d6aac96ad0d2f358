import CiInfra.Lib.Fallible
import CiInfra.Lib.History

/-!
# Programs among others

What a program does between its calls to a shared state depends on what the others may do to that
state meanwhile. A program is verified against a relation that all of them keep to: before each of
its calls the state may have moved along the relation. What is proved so of every program of a
system holds in every history of it.
-/

namespace Interaction

open Program

variable {ι Op : Type} {Res : Op → Type} {ε α β σ : Type}
  {serves : (op : Op) → σ → Res op → σ → Prop} {rely : σ → σ → Prop}

/-- From a state that the others may move along `rely` before each call: every call finds a state
in which it satisfies `P`, and what is returned satisfies `Q` in the state that the last call
left. -/
def Program.Among (serves : (op : Op) → σ → Res op → σ → Prop) (rely : σ → σ → Prop)
    (P : Op → σ → Prop) (Q : α → σ → Prop) : Program Op Res α → σ → Prop
  | done a, s => Q a s
  | call op next, s => ∀ s', rely s s' → P op s' ∧
      ∀ r s'', serves op s' r s'' → (next r).Among serves rely P Q s''

namespace Program

variable {P : Op → σ → Prop} {Q : α → σ → Prop}

theorem Among.bind {R : β → σ → Prop} {p : Program Op Res α} {f : α → Program Op Res β} {s : σ}
    (hp : p.Among serves rely P Q s) (hf : ∀ a s, Q a s → (f a).Among serves rely P R s) :
    (p.bind f).Among serves rely P R s := by
  induction p generalizing s with
  | done a => exact hf a s hp
  | call op next ih =>
    intro s' hs
    exact ⟨(hp s' hs).1, fun r s'' hr => ih r ((hp s' hs).2 r s'' hr)⟩

theorem Among.mono {Q' : α → σ → Prop} {p : Program Op Res α} {s : σ}
    (hp : p.Among serves rely P Q s) (hQ : ∀ a s, Q a s → Q' a s) :
    p.Among serves rely P Q' s := by
  induction p generalizing s with
  | done a => exact hQ a s hp
  | call op next ih =>
    intro s' hs
    exact ⟨(hp s' hs).1, fun r s'' hr => ih r ((hp s' hs).2 r s'' hr)⟩

/-- A program that has not returned may find the state moved before it goes on. -/
theorem Among.moved (htrans : ∀ s t u, rely s t → rely t u → rely s u) {p : Program Op Res α}
    {s s' : σ} (hp : (∃ a, p = done a) ∨ p.Among serves rely P Q s) (hs : rely s s') :
    (∃ a, p = done a) ∨ p.Among serves rely P Q s' := by
  cases p with
  | done a => exact Or.inl ⟨a, rfl⟩
  | call op next =>
    obtain ⟨a, ha⟩ | hp := hp
    · cases ha
    · exact Or.inr fun t ht => hp t (htrans _ _ _ hs ht)

end Program

/-! ### Histories -/

section Histories

variable [DecidableEq ι] {env : σ → σ → Prop} {P : ι → Op → σ → Prop} {Q : ι → α → σ → Prop}
  {S T : System ι Op Res α σ} {es past : List (Happening ι Op Res σ)}

/-- A family of programs among each other, in surroundings that keep to the relation too. -/
structure KeepsTo (serves : (op : Op) → σ → Res op → σ → Prop) (rely env : σ → σ → Prop)
    (P : ι → Op → σ → Prop) (Q : ι → α → σ → Prop) (S : System ι Op Res α σ) : Prop where
  refl : ∀ s, rely s s
  trans : ∀ s t u, rely s t → rely t u → rely s u
  serve : ∀ i op s r s', P i op s → serves op s r s' → rely s s'
  env : ∀ s s', env s s' → rely s s'
  among : ∀ i, (S.procs i).Among serves rely (P i) (Q i) S.state

/-- In every history, every program that has not returned goes on as it was verified to. -/
theorem History.among (h : History serves env S es T) (hS : KeepsTo serves rely env P Q S) :
    ∀ i, (∃ a, T.procs i = done a) ∨ (T.procs i).Among serves rely (P i) (Q i) T.state := by
  induction h with
  | nil => exact fun i => Or.inr (hS.among i)
  | @call past T j op next r s' _ hj hr ih =>
    have hcall : ∀ t, rely T.state t → P j op t ∧
        ∀ r s'', serves op t r s'' → (next r).Among serves rely (P j) (Q j) s'' := by
      rcases ih j with ⟨a, ha⟩ | hj'
      · cases hj.symm.trans ha
      · rwa [hj] at hj'
    intro i
    dsimp only
    by_cases hij : i = j
    · subst hij
      rw [Function.update_self]
      exact Or.inr ((hcall _ (hS.refl _)).2 r s' hr)
    · rw [Function.update_of_ne hij]
      exact Among.moved hS.trans (ih i) (hS.serve j op _ r s' (hcall _ (hS.refl _)).1 hr)
  | env _ hs ih => exact fun i => Among.moved hS.trans (ih i) (hS.env _ _ hs)

/-- Every call is made in a state in which it satisfies what it was verified to, and the program
goes on from the state that it leaves. -/
theorem History.among_call {e : Happening ι Op Res σ} {i : ι} {op : Op} {r : Res op}
    (h : History serves env S (e :: past) T) (hS : KeepsTo serves rely env P Q S)
    (hcall : e.call = some (i, ⟨op, r⟩)) :
    P i op e.before ∧ (T.procs i).Among serves rely (P i) (Q i) T.state := by
  cases h with
  | @call _ U j op next r s' hU hj hr =>
    cases hcall
    rcases hU.among hS i with ⟨a, ha⟩ | hamong
    · cases hj.symm.trans ha
    · rw [hj] at hamong
      obtain ⟨hop, hnext⟩ := hamong _ (hS.refl _)
      dsimp only
      rw [Function.update_self]
      exact ⟨hop, hnext r s' hr⟩
  | env _ _ => cases hcall

end Histories

/-! ### Programs that raise -/

namespace Fallible

variable {P : Op → σ → Prop} {Q : α → σ → Prop} {E E' : ε → σ → Prop}

/-- A program that may raise, among others: what it gives satisfies `Q`, what it raises `E`. -/
def Among (serves : (op : Op) → σ → Res op → σ → Prop) (rely : σ → σ → Prop) (P : Op → σ → Prop)
    (Q : α → σ → Prop) (E : ε → σ → Prop) (p : Fallible Op Res ε α) (s : σ) : Prop :=
  Program.Among serves rely P (fun r s => match r with | .ok a => Q a s | .error e => E e s) p.run s

theorem among_pure {a : α} {s : σ} (h : Q a s) :
    (pure a : Fallible Op Res ε α).Among serves rely P Q E s := h

theorem among_throw {e : ε} {s : σ} (h : E e s) :
    (throw e : Fallible Op Res ε α).Among serves rely P Q E s := h

theorem among_request {op : Op} {answer : Res op → Except ε α} {s : σ}
    (hop : ∀ s', rely s s' → P op s')
    (hok : ∀ s' r s'' a, rely s s' → serves op s' r s'' → answer r = .ok a → Q a s'')
    (herror : ∀ s' r s'' e, rely s s' → serves op s' r s'' → answer r = .error e → E e s'') :
    (request op answer).Among serves rely P Q E s := by
  intro s' hs
  refine ⟨hop s' hs, fun r s'' hr => ?_⟩
  change match answer r with
    | .ok a => Q a s''
    | .error e => E e s''
  split
  · exact hok s' r s'' _ hs hr ‹_›
  · exact herror s' r s'' _ hs hr ‹_›

theorem Among.bind {R : β → σ → Prop} {p : Fallible Op Res ε α} {f : α → Fallible Op Res ε β}
    {s : σ} (hp : p.Among serves rely P Q E s)
    (hf : ∀ a s, Q a s → (f a).Among serves rely P R E s) :
    (p >>= f).Among serves rely P R E s := by
  refine Program.Among.bind hp fun r s hr => ?_
  cases r with
  | ok a => exact hf a s hr
  | error e => exact hr

theorem Among.mono {Q' : α → σ → Prop} {p : Fallible Op Res ε α} {s : σ}
    (hp : p.Among serves rely P Q E s) (hQ : ∀ a s, Q a s → Q' a s)
    (hE : ∀ e s, E e s → E' e s) : p.Among serves rely P Q' E' s :=
  Program.Among.mono hp fun r s => by
    cases r with
    | ok a => exact hQ a s
    | error e => exact hE e s

theorem Among.tryCatch {p : Fallible Op Res ε α} {f : ε → Fallible Op Res ε α} {s : σ}
    (hp : p.Among serves rely P Q E s) (hf : ∀ e s, E e s → (f e).Among serves rely P Q E' s) :
    (tryCatch p f).Among serves rely P Q E' s := by
  refine Program.Among.bind hp fun r s hr => ?_
  cases r with
  | ok a => exact hr
  | error e => exact hf e s hr

end Fallible

end Interaction
