import CiInfra.Lib.Program
import Mathlib.Data.List.Forall2

/-!
# Programs that raise, and programs that run side by side

A fallible program is a program whose result may be an exception; sequencing skips what
follows a raised exception, and a handler resumes after it. Two programs of one party that
run in threads are merged into one: at each step an operation of its own decides which of
them goes on.
-/

namespace Interaction

open Program

variable {Op : Type} {Res : Op → Type} {ε α β : Type}

/-- Programs that may raise an `ε`. -/
abbrev Fallible (Op : Type) (Res : Op → Type) (ε : Type) := ExceptT ε (Program Op Res)

namespace Fallible

/-- Issue an operation whose answer may be an exception, and raise it. -/
def request (op : Op) (answer : Res op → Except ε α) : Fallible Op Res ε α :=
  ExceptT.mk (.call op fun r => .done (answer r))

/-- Run a program only under a condition. -/
def whenever (c : Bool) (p : Fallible Op Res ε Unit) : Fallible Op Res ε Unit :=
  if c then p else pure ()

/-- Run a program whose exceptions are logged and otherwise ignored. -/
def logged (p : Fallible Op Res ε Unit) : Fallible Op Res ε Unit := tryCatch p fun _ => pure ()

/-- Run a program with a value in place of any exception. -/
def orElseGive (p : Fallible Op Res ε α) (a : α) : Fallible Op Res ε α :=
  tryCatch p fun _ => pure a

/-- The result of a program, raised exceptions included. -/
def outcome (p : Fallible Op Res ε α) : Fallible Op Res ε (Except ε α) :=
  ExceptT.mk (p.run.bind fun r => .done (.ok r))

/-- Run a program to completion and then another one, whatever the first one raised. -/
def andFinally (p : Fallible Op Res ε α) (q : Fallible Op Res ε Unit) : Fallible Op Res ε α := do
  let r ← p.outcome
  q
  MonadExcept.ofExcept r

/-- Run a program for each element of a list and collect the results. -/
def collect {γ : Type} (f : β → Fallible Op Res ε γ) : List β → Fallible Op Res ε (List γ)
  | [] => pure []
  | b :: bs => do
    let c ← f b
    let cs ← collect f bs
    return c :: cs

/-! ### Properties of every call -/

/-- Every operation the program can issue satisfies `P`. -/
def Issues (P : Op → Prop) (p : Fallible Op Res ε α) : Prop := p.run.OnlyCalls P

variable {P : Op → Prop}

@[simp] theorem issues_pure (a : α) : (pure a : Fallible Op Res ε α).Issues P := trivial

@[simp] theorem issues_throw (e : ε) : (throw e : Fallible Op Res ε α).Issues P := trivial

theorem issues_request {op : Op} {answer : Res op → Except ε α} (h : P op) :
    (request op answer).Issues P := ⟨h, fun _ => trivial⟩

theorem Issues.bind {p : Fallible Op Res ε α} {f : α → Fallible Op Res ε β} (hp : p.Issues P)
    (hf : ∀ a, (f a).Issues P) : (p >>= f).Issues P := by
  refine OnlyCalls.bind hp fun r => ?_
  cases r with
  | ok a => exact hf a
  | error e => trivial

theorem Issues.tryCatch {p : Fallible Op Res ε α} {f : ε → Fallible Op Res ε α} (hp : p.Issues P)
    (hf : ∀ e, (f e).Issues P) : (tryCatch p f).Issues P := by
  refine OnlyCalls.bind hp fun r => ?_
  cases r with
  | ok a => trivial
  | error e => exact hf e

theorem Issues.whenever {p : Fallible Op Res ε Unit} (c : Bool) (hp : p.Issues P) :
    (whenever c p).Issues P := by
  unfold Fallible.whenever
  split
  · exact hp
  · trivial

theorem Issues.logged {p : Fallible Op Res ε Unit} (hp : p.Issues P) : p.logged.Issues P :=
  hp.tryCatch fun _ => trivial

theorem Issues.orElseGive {p : Fallible Op Res ε α} (hp : p.Issues P) (a : α) :
    (p.orElseGive a).Issues P := hp.tryCatch fun _ => trivial

theorem Issues.outcome {p : Fallible Op Res ε α} (hp : p.Issues P) : p.outcome.Issues P :=
  OnlyCalls.bind hp fun _ => trivial

/-- A loop keeps a property of all calls that its body has for every element. -/
theorem Issues.forM {f : β → Fallible Op Res ε Unit} {bs : List β}
    (hf : ∀ b ∈ bs, (f b).Issues P) : (bs.forM f).Issues P := by
  induction bs with
  | nil => trivial
  | cons b bs ih => exact (hf b (by simp)).bind fun _ => ih fun c hc => hf c (by simp [hc])

theorem Issues.collect {γ : Type} {f : β → Fallible Op Res ε γ} {bs : List β}
    (hf : ∀ b ∈ bs, (f b).Issues P) : (collect f bs).Issues P := by
  induction bs with
  | nil => trivial
  | cons b bs ih =>
    exact (hf b (by simp)).bind fun _ => (ih fun c hc => hf c (by simp [hc])).bind fun _ => trivial

theorem Issues.mono {Q : Op → Prop} {p : Fallible Op Res ε α} (hp : p.Issues P)
    (h : ∀ op, P op → Q op) : p.Issues Q := OnlyCalls.mono hp h

/-! ### Answers that are relied on -/

/-- As long as all answers satisfy `A`, every call satisfies `P`, what the program returns
satisfies `Q` and what it raises satisfies `E`. -/
def Meets (A : Event Op Res → Prop) (P : Op → Prop) (Q : α → Prop) (E : ε → Prop)
    (p : Fallible Op Res ε α) : Prop :=
  p.run.Within A P fun
    | .ok a => Q a
    | .error e => E e

section Meets

variable {A : Event Op Res → Prop} {P P' : Op → Prop} {Q Q' : α → Prop} {E E' : ε → Prop}

theorem meets_pure {a : α} (h : Q a) : (pure a : Fallible Op Res ε α).Meets A P Q E := h

theorem meets_throw {e : ε} (h : E e) : (throw e : Fallible Op Res ε α).Meets A P Q E := h

theorem meets_request {op : Op} {answer : Res op → Except ε α} (hop : P op)
    (hok : ∀ r a, A ⟨op, r⟩ → answer r = .ok a → Q a)
    (herror : ∀ r e, A ⟨op, r⟩ → answer r = .error e → E e) :
    (request op answer).Meets A P Q E := by
  refine ⟨hop, fun r hr => ?_⟩
  change match answer r with
    | .ok a => Q a
    | .error e => E e
  split
  · exact hok r _ hr ‹_›
  · exact herror r _ hr ‹_›

/-- A property of all calls holds whatever the answers. -/
theorem Issues.meets {p : Fallible Op Res ε α} (h : p.Issues P) :
    p.Meets A P (fun _ => True) fun _ => True :=
  (OnlyCalls.within h).mono (fun _ h => h) fun r _ => by cases r <;> trivial

theorem Meets.issues {p : Fallible Op Res ε α} (h : p.Meets (fun _ => True) P Q E) : p.Issues P :=
  Within.onlyCalls h

theorem Meets.mono {p : Fallible Op Res ε α} (h : p.Meets A P Q E) (hP : ∀ op, P op → P' op)
    (hQ : ∀ a, Q a → Q' a) (hE : ∀ e, E e → E' e) : p.Meets A P' Q' E' :=
  Within.mono h hP fun r => by
    cases r with
    | ok a => exact hQ a
    | error e => exact hE e

theorem Meets.bind {R : β → Prop} {p : Fallible Op Res ε α} {f : α → Fallible Op Res ε β}
    (hp : p.Meets A P Q E) (hf : ∀ a, Q a → (f a).Meets A P R E) : (p >>= f).Meets A P R E := by
  refine Within.bind hp fun r hr => ?_
  cases r with
  | ok a => exact hf a hr
  | error e => exact hr

theorem Meets.tryCatch {p : Fallible Op Res ε α} {f : ε → Fallible Op Res ε α}
    (hp : p.Meets A P Q E) (hf : ∀ e, E e → (f e).Meets A P Q E') :
    (tryCatch p f).Meets A P Q E' := by
  refine Within.bind hp fun r hr => ?_
  cases r with
  | ok a => exact hr
  | error e => exact hf e hr

theorem Meets.whenever {R : Unit → Prop} {p : Fallible Op Res ε Unit} {c : Bool}
    (hR : c = false → R ()) (hp : c = true → p.Meets A P R E) :
    (whenever c p).Meets A P R E := by
  unfold Fallible.whenever
  split
  · exact hp ‹_›
  · exact hR (by simpa using ‹¬ c = true›)

theorem Meets.logged {p : Fallible Op Res ε Unit} (hp : p.Meets A P (fun _ => True) E) :
    p.logged.Meets A P (fun _ => True) E' := hp.tryCatch fun _ _ => trivial

theorem Meets.orElseGive {p : Fallible Op Res ε α} {a : α} (hp : p.Meets A P Q E) (ha : Q a) :
    (p.orElseGive a).Meets A P Q E' := hp.tryCatch fun _ _ => ha

/-- What a program returns or raises, given as a result. -/
theorem Meets.outcome {p : Fallible Op Res ε α} (hp : p.Meets A P Q E) :
    p.outcome.Meets A P (fun r => (∀ a, r = .ok a → Q a) ∧ ∀ e, r = .error e → E e) E' := by
  refine Within.bind hp fun r hr => ?_
  cases r with
  | ok a =>
    refine ⟨fun b hb => ?_, fun e he => nomatch he⟩
    cases hb
    exact hr
  | error e =>
    refine ⟨fun b hb => (nomatch hb), fun e' he => ?_⟩
    cases he
    exact hr

theorem Meets.andFinally {p : Fallible Op Res ε α} {q : Fallible Op Res ε Unit}
    (hp : p.Meets A P Q E) (hq : q.Meets A P (fun _ => True) E) :
    (p.andFinally q).Meets A P Q E := by
  refine hp.outcome.bind fun r hr => hq.bind fun _ _ => ?_
  cases r with
  | ok a => exact hr.1 a rfl
  | error e => exact hr.2 e rfl

theorem Meets.collect {γ : Type} {R : β → γ → Prop} {f : β → Fallible Op Res ε γ} {bs : List β}
    (hf : ∀ b ∈ bs, (f b).Meets A P (R b) E) :
    (Fallible.collect f bs).Meets A P (List.Forall₂ R bs) E := by
  induction bs with
  | nil => exact meets_pure .nil
  | cons b bs ih =>
    exact (hf b List.mem_cons_self).bind fun c hc =>
      (ih fun b' hb' => hf b' (List.mem_cons_of_mem _ hb')).bind fun cs hcs =>
        meets_pure (.cons hc hcs)

theorem Meets.forM {f : β → Fallible Op Res ε Unit} {bs : List β}
    (hf : ∀ b ∈ bs, (f b).Meets A P (fun _ => True) E) :
    (bs.forM f).Meets A P (fun _ => True) E := by
  induction bs with
  | nil => trivial
  | cons b bs ih => exact (hf b (by simp)).bind fun _ _ => ih fun c hc => hf c (by simp [hc])

end Meets

/-! ### From a call on -/

/-- From any call that satisfies `M` on, as long as all answers satisfy `A`, every call satisfies
`P`. -/
def MeetsFrom (M : Op → Prop) (A : Event Op Res → Prop) (P : Op → Prop) (p : Fallible Op Res ε α) :
    Prop := p.run.WithinFrom M A P

section MeetsFrom

variable {M : Op → Prop} {A : Event Op Res → Prop} {Q : α → Prop} {E : ε → Prop}

theorem Meets.from {p : Fallible Op Res ε α} (h : p.Meets A P Q E) : p.MeetsFrom M A P :=
  Within.from h

/-- What comes before any such call may be anything. -/
theorem MeetsFrom.bind {p : Fallible Op Res ε α} {f : α → Fallible Op Res ε β}
    (hp : p.Issues fun op => ¬ M op) (hf : ∀ a, (f a).MeetsFrom M A P) :
    (p >>= f).MeetsFrom M A P := by
  refine WithinFrom.bind hp fun r => ?_
  cases r with
  | ok a => exact hf a
  | error e => trivial

end MeetsFrom

/-! ### Given what went before -/

/-- Every call satisfies `P` with the calls before it, what the program returns satisfies `Q` and
what it raises satisfies `E` with all of them, the latest first. -/
def Heeds (P : List (Event Op Res) → Op → Prop) (Q : List (Event Op Res) → α → Prop)
    (E : List (Event Op Res) → ε → Prop) (past : List (Event Op Res)) (p : Fallible Op Res ε α) :
    Prop :=
  p.run.Heeds P (fun past r => match r with | .ok a => Q past a | .error e => E past e) past

section Heeds

variable {P : List (Event Op Res) → Op → Prop} {Q : List (Event Op Res) → α → Prop}
  {E E' : List (Event Op Res) → ε → Prop} {past : List (Event Op Res)}

theorem heeds_pure {a : α} (h : Q past a) : (pure a : Fallible Op Res ε α).Heeds P Q E past := h

theorem heeds_throw {e : ε} (h : E past e) : (throw e : Fallible Op Res ε α).Heeds P Q E past := h

theorem heeds_request {op : Op} {answer : Res op → Except ε α} (hop : P past op)
    (hok : ∀ r a, answer r = .ok a → Q (⟨op, r⟩ :: past) a)
    (herror : ∀ r e, answer r = .error e → E (⟨op, r⟩ :: past) e) :
    (request op answer).Heeds P Q E past := by
  refine ⟨hop, fun r => ?_⟩
  change match answer r with
    | .ok a => Q (⟨op, r⟩ :: past) a
    | .error e => E (⟨op, r⟩ :: past) e
  split
  · exact hok r _ ‹_›
  · exact herror r _ ‹_›

theorem Heeds.mono {Q' : List (Event Op Res) → α → Prop} {p : Fallible Op Res ε α}
    (hp : p.Heeds P Q E past) (hQ : ∀ past a, Q past a → Q' past a)
    (hE : ∀ past e, E past e → E' past e) : p.Heeds P Q' E' past :=
  Program.Heeds.mono hp fun past r => by
    cases r with
    | ok a => exact hQ past a
    | error e => exact hE past e

/-- What every call keeps, a program keeps. -/
theorem Heeds.keeps {K : List (Event Op Res) → Prop} {p : Fallible Op Res ε α}
    (hp : p.Heeds P Q E past) (hkeep : ∀ past c, K past → K (c :: past)) (hK : K past) :
    p.Heeds P (fun past a => Q past a ∧ K past) (fun past e => E past e ∧ K past) past :=
  Program.Heeds.mono (Program.Heeds.keeps hp hkeep hK) fun past r hr => by
    cases r <;> exact hr

theorem Heeds.bind {R : List (Event Op Res) → β → Prop} {p : Fallible Op Res ε α}
    {f : α → Fallible Op Res ε β} (hp : p.Heeds P Q E past)
    (hf : ∀ past a, Q past a → (f a).Heeds P R E past) : (p >>= f).Heeds P R E past := by
  refine Program.Heeds.bind hp fun past r hr => ?_
  cases r with
  | ok a => exact hf past a hr
  | error e => exact hr

theorem Heeds.tryCatch {p : Fallible Op Res ε α} {f : ε → Fallible Op Res ε α}
    (hp : p.Heeds P Q E past) (hf : ∀ past e, E past e → (f e).Heeds P Q E' past) :
    (tryCatch p f).Heeds P Q E' past := by
  refine Program.Heeds.bind hp fun past r hr => ?_
  cases r with
  | ok a => exact hr
  | error e => exact hf past e hr

theorem Heeds.orElseGive {p : Fallible Op Res ε α} {a : α} (hp : p.Heeds P Q E past)
    (ha : ∀ past e, E past e → Q past a) : (p.orElseGive a).Heeds P Q E' past :=
  hp.tryCatch fun past e he => ha past e he

theorem Heeds.whenever {K : List (Event Op Res) → Prop} {p : Fallible Op Res ε Unit} {c : Bool}
    (hK : K past) (hp : c = true → p.Heeds P (fun past _ => K past) E past) :
    (whenever c p).Heeds P (fun past _ => K past) E past := by
  unfold Fallible.whenever
  split
  · exact hp ‹_›
  · exact hK

theorem Heeds.logged {K : List (Event Op Res) → Prop} {p : Fallible Op Res ε Unit}
    (hp : p.Heeds P (fun past _ => K past) (fun past _ => K past) past) :
    p.logged.Heeds P (fun past _ => K past) E' past :=
  hp.tryCatch fun _ _ hK => hK

/-- A loop goes on from what its steps keep. -/
theorem Heeds.collect {γ : Type} {K : List (Event Op Res) → Prop} {f : β → Fallible Op Res ε γ}
    {bs : List β} (hf : ∀ b ∈ bs, ∀ past, K past → (f b).Heeds P (fun past _ => K past) E past)
    (hK : K past) : (collect f bs).Heeds P (fun past _ => K past) E past := by
  induction bs generalizing past with
  | nil => exact hK
  | cons b bs ih =>
    obtain ⟨hb, hbs⟩ := List.forall_mem_cons.mp hf
    exact (hb past hK).bind fun _ _ hK => (ih hbs hK).bind fun _ _ hK => hK

/-- What is returned follows, for each assumption, from the answers that satisfy it. -/
theorem Meets.heeds {κ : Type} {A : κ → Event Op Res → Prop} {R : Op → Prop} {Q' : κ → α → Prop}
    {E₀ : ε → Prop} {p : Fallible Op Res ε α}
    (hp : p.Meets (fun _ => True) R (fun _ => True) E₀) (hcall : ∀ past op, R op → P past op)
    (h : ∀ k, (∀ c ∈ past, A k c) → p.Meets (A k) (fun _ => True) (Q' k) fun _ => True) :
    p.Heeds P (fun past a => ∀ k, (∀ c ∈ past, A k c) → Q' k a) (fun _ e => E₀ e) past := by
  refine Program.Heeds.mono (Within.heeds hp hcall h) fun past r hr => ?_
  cases r with
  | ok a => exact hr.2
  | error e => exact hr.1

/-- What a program does after some calls is what it does. -/
theorem Heeds.since {p : Fallible Op Res ε α} (hp : p.Heeds P Q E past)
    (before : List (Event Op Res)) :
    p.Heeds (fun past op => ∃ since, past = since ++ before ∧ P since op)
      (fun past a => ∃ since, past = since ++ before ∧ Q since a)
      (fun past e => ∃ since, past = since ++ before ∧ E since e) (past ++ before) := by
  refine Program.Heeds.mono (Program.Heeds.since hp before) fun past r hr => ?_
  cases r with
  | ok a => exact hr
  | error e => exact hr

theorem Heeds.mono_calls {P' : List (Event Op Res) → Op → Prop} {p : Fallible Op Res ε α}
    (hp : p.Heeds P Q E past) (hP : ∀ past op, P past op → P' past op) : p.Heeds P' Q E past :=
  Program.Heeds.mono_calls hp hP

/-- What calls of one kind keep holds at their end, if it is all that they need. -/
theorem Issues.heeds {R : Op → Prop} {K : List (Event Op Res) → Prop} {p : Fallible Op Res ε α}
    (h : p.Issues R) (hcall : ∀ past op, K past → R op → P past op)
    (hkeep : ∀ past op r, K past → R op → K (⟨op, r⟩ :: past)) (hpast : K past) :
    p.Heeds P (fun past _ => K past) (fun past _ => K past) past := by
  refine Program.Heeds.mono (OnlyCalls.heeds h hcall hkeep hpast) fun past r hr => ?_
  cases r <;> exact hr

end Heeds

/-! ### To the end -/

/-- A program that runs to its end, whatever it gives or raises. -/
def toEnd (p : Fallible Op Res ε α) : Program Op Res Unit := p.run.bind fun _ => .done ()

theorem Meets.toEnd {A : Event Op Res → Prop} {Q : α → Prop} {E : ε → Prop}
    {p : Fallible Op Res ε α} (h : p.Meets A P Q E) : p.toEnd.Within A P fun _ => True :=
  Within.bind h fun _ _ => trivial

theorem MeetsFrom.toEnd {M : Op → Prop} {A : Event Op Res → Prop} {p : Fallible Op Res ε α}
    (h : p.MeetsFrom M A P) : p.toEnd.WithinFrom M A P := by
  unfold Fallible.toEnd
  have hp : p.run.WithinFrom M A P := h
  generalize p.run = q at hp ⊢
  induction q with
  | done a => trivial
  | call op next ih =>
    refine ⟨fun hop => ?_, fun r hr => ih r (hp.2 r hr)⟩
    exact Within.bind (f := fun _ => .done ()) (hp.1 hop) fun _ _ => trivial

theorem Heeds.toEnd_keeps {P : List (Event Op Res) → Op → Prop} {K : List (Event Op Res) → Prop}
    {p : Fallible Op Res ε α} (h : p.Heeds P (fun past _ => K past) (fun past _ => K past) []) :
    p.toEnd.Heeds P (fun past _ => K past) [] := by
  refine Program.Heeds.bind h fun past r hr => ?_
  cases r <;> exact hr

theorem Heeds.toEnd {P : List (Event Op Res) → Op → Prop} {Q : List (Event Op Res) → α → Prop}
    {E : List (Event Op Res) → ε → Prop} {p : Fallible Op Res ε α} (h : p.Heeds P Q E []) :
    p.toEnd.Heeds P (fun _ _ => True) [] :=
  Program.Heeds.bind h fun _ _ _ => trivial

/-! ### Runs alone -/

section Exec

variable {σ : Type} {serves : (op : Op) → σ → Res op → σ → Prop}

/-- A run of a sequence ends with what its first program raises, or goes on with its second. -/
theorem exec_bind {p : Fallible Op Res ε α} {f : α → Fallible Op Res ε β} {s s' : σ}
    {t : List (Served Op Res σ)} {r : Except ε β} (h : Exec serves (p >>= f).run s t r s') :
    (∃ e, r = .error e ∧ Exec serves p.run s t (.error e) s') ∨
      ∃ a s₁ t₁ t₂, t = t₁ ++ t₂ ∧ Exec serves p.run s t₁ (.ok a) s₁ ∧
        Exec serves (f a).run s₁ t₂ r s' := by
  obtain ⟨x, s₁, t₁, t₂, rfl, h₁, h₂⟩ := exec_bind_iff.mp h
  cases x with
  | ok a => exact Or.inr ⟨a, s₁, t₁, t₂, rfl, h₁, h₂⟩
  | error e =>
    obtain ⟨rfl, rfl, rfl⟩ := exec_done_iff.mp h₂
    rw [List.append_nil]
    exact Or.inl ⟨e, rfl, h₁⟩

/-- A run of a first program that raises nothing goes on with a run of the second. -/
theorem exec_bind_ok {p : Fallible Op Res ε α} {f : α → Fallible Op Res ε β} {a : α}
    {s s₁ s' : σ} {t₁ t₂ : List (Served Op Res σ)} {r : Except ε β}
    (h₁ : Exec serves p.run s t₁ (.ok a) s₁) (h₂ : Exec serves (f a).run s₁ t₂ r s') :
    Exec serves (p >>= f).run s (t₁ ++ t₂) r s' :=
  exec_bind_iff.mpr ⟨_, _, _, _, rfl, h₁, h₂⟩

/-- A run that raises nothing is a run with any handler. -/
theorem exec_tryCatch_ok {p : Fallible Op Res ε α} {a : α} {s s' : σ}
    {t : List (Served Op Res σ)} (h : Exec serves p.run s t (.ok a) s')
    (f : ε → Fallible Op Res ε α) : Exec serves (tryCatch p f).run s t (.ok a) s' :=
  exec_bind_iff.mpr ⟨_, _, t, [], (List.append_nil t).symm, h, .done _ _⟩

/-- A run of a program is a run with a value in place of any exception, and raises nothing. -/
theorem exec_orElseGive_ok {p : Fallible Op Res ε α} {s s' : σ} {t : List (Served Op Res σ)}
    {r : Except ε α} (h : Exec serves p.run s t r s') (a : α) :
    ∃ b, Exec serves (p.orElseGive a).run s t (.ok b) s' := by
  cases r with
  | ok b => exact ⟨b, exec_tryCatch_ok h _⟩
  | error e => exact ⟨a, exec_bind_iff.mpr ⟨_, _, t, [], (List.append_nil t).symm, h, .done _ _⟩⟩

/-- A run with a value in place of any exception is a run of the program itself. -/
theorem exec_orElseGive {p : Fallible Op Res ε α} {a : α} {s s' : σ} {t : List (Served Op Res σ)}
    {r : Except ε α} (h : Exec serves (p.orElseGive a).run s t r s') :
    ∃ r', Exec serves p.run s t r' s' := by
  obtain ⟨x, s₁, t₁, t₂, rfl, h₁, h₂⟩ := exec_bind_iff.mp h
  refine ⟨x, ?_⟩
  cases x with
  | ok c =>
    obtain ⟨rfl, -, rfl⟩ := exec_done_iff.mp h₂
    rwa [List.append_nil]
  | error e =>
    obtain ⟨rfl, -, rfl⟩ := exec_done_iff.mp h₂
    rwa [List.append_nil]

/-- A run whose exceptions are logged is a run of the program, and raises nothing. -/
theorem exec_logged {p : Fallible Op Res ε Unit} {s s' : σ} {t : List (Served Op Res σ)}
    {r : Except ε Unit} (h : Exec serves p.logged.run s t r s') :
    r = .ok () ∧ ∃ r', Exec serves p.run s t r' s' := by
  obtain ⟨x, s₁, t₁, t₂, rfl, h₁, h₂⟩ := exec_bind_iff.mp h
  cases x with
  | ok _ =>
    obtain ⟨rfl, rfl, rfl⟩ := exec_done_iff.mp h₂
    rw [List.append_nil]
    exact ⟨rfl, _, h₁⟩
  | error e =>
    obtain ⟨rfl, rfl, rfl⟩ := exec_done_iff.mp h₂
    rw [List.append_nil]
    exact ⟨rfl, _, h₁⟩

theorem exec_request {op : Op} {answer : Res op → Except ε α} {s s' : σ}
    {t : List (Served Op Res σ)} {r : Except ε α}
    (h : Exec serves (request op answer : Fallible Op Res ε α).run s t r s') :
    ∃ res, t = [⟨op, res, s, s'⟩] ∧ serves op s res s' ∧ r = answer res := by
  obtain ⟨res, s₁, t', rfl, hr, h'⟩ := exec_call_iff.mp h
  obtain ⟨rfl, rfl, rfl⟩ := exec_done_iff.mp h'
  exact ⟨res, rfl, hr, rfl⟩

end Exec

/-! ### Sequential runs -/

variable {σ : Type} (serve : (op : Op) → σ → Res op × σ)

/-- What a program gives or raises in a run of its own, and the state it leaves. -/
def result (p : Fallible Op Res ε α) (s : σ) : Except ε α × σ := Program.run serve p.run s

/-- The calls that a program makes in a run of its own. -/
def callsIn (p : Fallible Op Res ε α) (s : σ) : List Op := Program.calls serve p.run s

@[simp] theorem result_pure (a : α) (s : σ) :
    (pure a : Fallible Op Res ε α).result serve s = (.ok a, s) := rfl

@[simp] theorem callsIn_pure (a : α) (s : σ) :
    (pure a : Fallible Op Res ε α).callsIn serve s = [] := rfl

variable {serve}

theorem result_bind {p : Fallible Op Res ε α} {s s' : σ} {a : α}
    (h : p.result serve s = (.ok a, s')) (f : α → Fallible Op Res ε β) :
    (p >>= f).result serve s = (f a).result serve s' := by
  have hrun : Program.run serve p.run s = (.ok a, s') := h
  change Program.run serve (p.run.bind _) s = _
  rw [run_bind, hrun]
  rfl

theorem result_bind_error {p : Fallible Op Res ε α} {s s' : σ} {e : ε}
    (h : p.result serve s = (.error e, s')) (f : α → Fallible Op Res ε β) :
    (p >>= f).result serve s = (.error e, s') := by
  have hrun : Program.run serve p.run s = (.error e, s') := h
  change Program.run serve (p.run.bind _) s = _
  rw [run_bind, hrun]
  rfl

theorem callsIn_bind {p : Fallible Op Res ε α} {s s' : σ} {a : α}
    (h : p.result serve s = (.ok a, s')) (f : α → Fallible Op Res ε β) :
    (p >>= f).callsIn serve s = p.callsIn serve s ++ (f a).callsIn serve s' := by
  have hrun : Program.run serve p.run s = (.ok a, s') := h
  change Program.calls serve (p.run.bind _) s = _
  rw [calls_bind, hrun]
  rfl

theorem result_tryCatch {p : Fallible Op Res ε α} {s s' : σ} {a : α}
    (h : p.result serve s = (.ok a, s')) (f : ε → Fallible Op Res ε α) :
    (tryCatch p f).result serve s = (.ok a, s') := by
  have hrun : Program.run serve p.run s = (.ok a, s') := h
  change Program.run serve (p.run.bind _) s = _
  rw [run_bind, hrun]
  rfl

theorem callsIn_tryCatch {p : Fallible Op Res ε α} {s s' : σ} {a : α}
    (h : p.result serve s = (.ok a, s')) (f : ε → Fallible Op Res ε α) :
    (tryCatch p f).callsIn serve s = p.callsIn serve s := by
  have hrun : Program.run serve p.run s = (.ok a, s') := h
  change Program.calls serve (p.run.bind _) s = _
  rw [calls_bind, hrun]
  exact List.append_nil _

/-- What is logged is not raised. -/
theorem result_logged (p : Fallible Op Res ε Unit) (s : σ) :
    p.logged.result serve s = (.ok (), (p.result serve s).2) := by
  change Program.run serve (p.run.bind _) s = _
  rw [run_bind]
  change _ = (_, (Program.run serve p.run s).2)
  cases (Program.run serve p.run s).1 <;> rfl

/-- A loop whose steps raise nothing raises nothing. -/
theorem result_forM {f : β → Fallible Op Res ε Unit}
    (h : ∀ b s, ∃ s', (f b).result serve s = (.ok (), s')) (bs : List β) (s : σ) :
    ∃ s', (bs.forM f).result serve s = (.ok (), s') := by
  induction bs generalizing s with
  | nil => exact ⟨s, rfl⟩
  | cons b bs ih =>
    obtain ⟨s', hs'⟩ := h b s
    rw [List.forM_eq_forM, List.forM_cons, result_bind hs']
    exact ih s'

/-- A property of all calls holds of those made in a run. -/
theorem Issues.of_mem_callsIn {p : Fallible Op Res ε α} (hp : p.Issues P) {s : σ} {op : Op}
    (h : op ∈ p.callsIn serve s) : P op := OnlyCalls.of_mem_calls hp h

/-- A loop that changes nothing gives the results of its steps. -/
theorem result_collect {γ : Type} {f : β → Fallible Op Res ε γ} {g : β → γ} {s : σ} {bs : List β}
    (h : ∀ b ∈ bs, (f b).result serve s = (.ok (g b), s)) :
    (collect f bs).result serve s = (.ok (bs.map g), s) := by
  induction bs with
  | nil => rfl
  | cons b bs ih =>
    rw [collect, result_bind (h b (by simp)), result_bind (ih fun c hc => h c (by simp [hc]))]
    rfl

end Fallible

/-! ### Threads -/

namespace Program

variable {turn : Op} {first : Res turn → Bool}

/-- Merge the call `op`, continued by `ih`, into the steps of a second program. -/
def mergeInto (turn : Op) (first : Res turn → Bool) (p : Program Op Res α) (op : Op)
    (ih : Res op → Program Op Res β → Program Op Res (α × β)) :
    Program Op Res β → Program Op Res (α × β)
  | done b => p.bind fun a => done (a, b)
  | call op' next' => call turn fun t =>
    match first t with
    | true => call op fun r => ih r (call op' next')
    | false => call op' fun r => mergeInto turn first p op ih (next' r)

/-- Two programs run side by side. Before each call that both could make, the answer to
`turn` decides which of them makes it. -/
def together (turn : Op) (first : Res turn → Bool) :
    Program Op Res α → Program Op Res β → Program Op Res (α × β)
  | done a => fun q => q.bind fun b => done (a, b)
  | call op next =>
    mergeInto turn first (call op next) op fun r => together turn first (next r)

theorem together_call_call (op : Op) (next : Res op → Program Op Res α) (op' : Op)
    (next' : Res op' → Program Op Res β) :
    together turn first (call op next) (call op' next') = call turn fun t =>
      match first t with
      | true => call op fun r => together turn first (next r) (call op' next')
      | false => call op' fun r => together turn first (call op next) (next' r) := by
  simp only [together, mergeInto]

/-- Side by side, two programs keep to what they keep to apart. -/
theorem Within.together {A : Event Op Res → Prop} {P : Op → Prop} {Q : α → Prop} {R : β → Prop}
    {p : Program Op Res α} {q : Program Op Res β} (hturn : P turn) (hp : p.Within A P Q)
    (hq : q.Within A P R) :
    (together turn first p q).Within A P fun r => Q r.1 ∧ R r.2 := by
  induction p generalizing q with
  | done a => exact hq.bind fun _ hb => ⟨hp, hb⟩
  | call op next ih =>
    induction q with
    | done b => exact Within.bind hp fun _ ha => ⟨ha, hq⟩
    | call op' next' ih' =>
      rw [together_call_call]
      refine ⟨hturn, fun t _ => ?_⟩
      dsimp only
      split
      · exact ⟨hp.1, fun r hr => ih r (hp.2 r hr) hq⟩
      · exact ⟨hq.1, fun r hr => ih' r (hq.2 r hr)⟩

/-- Side by side, two programs issue the calls they issue apart. -/
theorem OnlyCalls.together {P : Op → Prop} {p : Program Op Res α} {q : Program Op Res β}
    (hturn : P turn) (hp : p.OnlyCalls P) (hq : q.OnlyCalls P) :
    (together turn first p q).OnlyCalls P :=
  (Within.together hturn hp.within hq.within).onlyCalls

/-- Any number of programs run side by side. -/
def allTogether (turn : Op) (first : Res turn → Bool) :
    List (Program Op Res α) → Program Op Res (List α)
  | [] => done []
  | p :: ps => (together turn first p (allTogether turn first ps)).bind fun (a, as) =>
    done (a :: as)

theorem within_allTogether {A : Event Op Res → Prop} {P : Op → Prop} {Q : α → Prop}
    {ps : List (Program Op Res α)} (hturn : P turn) (h : ∀ p ∈ ps, p.Within A P Q) :
    (allTogether turn first ps).Within A P fun results => ∀ a ∈ results, Q a := by
  induction ps with
  | nil => exact fun a ha => nomatch ha
  | cons p ps ih =>
    obtain ⟨hp, hps⟩ := List.forall_mem_cons.mp h
    exact (hp.together hturn (ih hps)).bind fun _ hr => List.forall_mem_cons.mpr hr

end Program

end Interaction

/-!
## Runs in which every call goes through

What a program that runs alone gives and leaves, as long as each of its calls is answered as it
should be. Such a run raises nothing, so no handler has anything to do.
-/

namespace Interaction

open Program

variable {Op : Type} {Res : Op → Type} {ε α β σ : Type}

namespace Fallible

/-- As long as every call of a run satisfies `A`, the program raises nothing, and `Q` holds of the
calls, the result and the state at the end. -/
def Achieves (serves : (op : Op) → σ → Res op → σ → Prop) (A : Served Op Res σ → Prop)
    (p : Fallible Op Res ε α) (s : σ) (Q : List (Served Op Res σ) → α → σ → Prop) : Prop :=
  ∀ t r s', Exec serves p.run s t r s' → (∀ x ∈ t, A x) → ∃ a, r = .ok a ∧ Q t a s'

variable {serves : (op : Op) → σ → Res op → σ → Prop} {A : Served Op Res σ → Prop}
  {Q Q' : List (Served Op Res σ) → α → σ → Prop} {R : List (Served Op Res σ) → β → σ → Prop}
  {p : Fallible Op Res ε α} {f : α → Fallible Op Res ε β} {s : σ}

theorem achieves_pure {a : α} (h : Q [] a s) :
    (pure a : Fallible Op Res ε α).Achieves serves A s Q := by
  intro t r s' hrun _
  obtain ⟨rfl, rfl, rfl⟩ := exec_done_iff.mp hrun
  exact ⟨a, rfl, h⟩

theorem achieves_request {op : Op} {answer : Res op → Except ε α}
    (h : ∀ res s', serves op s res s' → A ⟨op, res, s, s'⟩ →
      ∃ a, answer res = .ok a ∧ Q [⟨op, res, s, s'⟩] a s') :
    (request op answer).Achieves serves A s Q := by
  intro t r s' hrun hA
  obtain ⟨res, rfl, hres, rfl⟩ := exec_request hrun
  exact h res s' hres (hA _ List.mem_cons_self)

/-- In a sequence, the second program goes on from the state in which the first one has left. -/
theorem Achieves.bind (hp : p.Achieves serves A s Q)
    (hf : ∀ t a s', Q t a s' → (f a).Achieves serves A s' fun t' => R (t ++ t')) :
    (p >>= f).Achieves serves A s R := by
  intro t r s' hrun hA
  rcases exec_bind hrun with ⟨e, rfl, hraised⟩ | ⟨a, s₁, t₁, t₂, rfl, h₁, h₂⟩
  · obtain ⟨a, herror, -⟩ := hp _ _ _ hraised hA
    cases herror
  · obtain ⟨hA₁, hA₂⟩ := List.forall_mem_append.mp hA
    obtain ⟨_, ha, hQ⟩ := hp _ _ _ h₁ hA₁
    cases ha
    exact hf t₁ a s₁ hQ t₂ r s' h₂ hA₂

theorem Achieves.mono (hp : p.Achieves serves A s Q) (h : ∀ t a s', Q t a s' → Q' t a s') :
    p.Achieves serves A s Q' := by
  intro t r s' hrun hA
  obtain ⟨a, rfl, hQ⟩ := hp t r s' hrun hA
  exact ⟨a, rfl, h t a s' hQ⟩

/-- What raises nothing needs no handler. -/
theorem Achieves.tryCatch (hp : p.Achieves serves A s Q) (g : ε → Fallible Op Res ε α) :
    (tryCatch p g).Achieves serves A s Q := by
  intro t r s' hrun hA
  obtain ⟨x, s₁, t₁, t₂, rfl, h₁, h₂⟩ := exec_bind_iff.mp hrun
  obtain ⟨a, rfl, hQ⟩ := hp t₁ x s₁ h₁ fun e he => hA e (List.mem_append_left t₂ he)
  obtain ⟨rfl, rfl, rfl⟩ := exec_done_iff.mp h₂
  exact ⟨a, rfl, by rwa [List.append_nil]⟩

theorem Achieves.orElseGive (hp : p.Achieves serves A s Q) (a : α) :
    (p.orElseGive a).Achieves serves A s Q := hp.tryCatch _

theorem Achieves.logged {q : Fallible Op Res ε Unit}
    {Q : List (Served Op Res σ) → Unit → σ → Prop} (hq : q.Achieves serves A s Q) :
    q.logged.Achieves serves A s Q := hq.tryCatch _

theorem Achieves.whenever {q : Fallible Op Res ε Unit} {c : Bool}
    {Q : List (Served Op Res σ) → Unit → σ → Prop} (hq : c = true → q.Achieves serves A s Q)
    (hnot : c = false → Q [] () s) : (whenever c q).Achieves serves A s Q := by
  unfold Fallible.whenever
  split
  · exact hq ‹_›
  · exact achieves_pure (hnot (by simpa using ‹¬ c = true›))

end Fallible

end Interaction

/-!
## What runs leave

A triple for programs that run alone against a server that may answer in many ways: every run from
a state whose calls went as assumed ends with a result and a state that satisfy a postcondition.
For a program that may raise, the result is what it gives or raises.
-/

namespace Interaction

open Program

variable {Op : Type} {Res : Op → Type} {ε α β σ : Type}
  {serves : (op : Op) → σ → Res op → σ → Prop} {A : Served Op Res σ → Prop} {s : σ}

/-- Every run from `s` whose calls satisfy `A` ends with `Q`. -/
def Program.Leaves (serves : (op : Op) → σ → Res op → σ → Prop) (A : Served Op Res σ → Prop)
    (p : Program Op Res α) (s : σ) (Q : α → σ → Prop) : Prop :=
  ∀ t a s', Exec serves p s t a s' → (∀ x ∈ t, A x) → Q a s'

namespace Program

variable {Q Q' : α → σ → Prop} {p : Program Op Res α}

theorem leaves_done {a : α} (h : Q a s) : (done a : Program Op Res α).Leaves serves A s Q := by
  intro t b s' hrun _
  obtain ⟨rfl, rfl, rfl⟩ := exec_done_iff.mp hrun
  exact h

theorem Leaves.mono (hp : p.Leaves serves A s Q) (h : ∀ a s', Q a s' → Q' a s') :
    p.Leaves serves A s Q' :=
  fun t a s' hrun hA => h a s' (hp t a s' hrun hA)

/-- A second program goes on from the state in which the first one has left. -/
theorem Leaves.bind {R : β → σ → Prop} {f : α → Program Op Res β} (hp : p.Leaves serves A s Q)
    (hf : ∀ a s', Q a s' → (f a).Leaves serves A s' R) : (p.bind f).Leaves serves A s R := by
  intro t b s' hrun hA
  obtain ⟨a, s₁, t₁, t₂, rfl, h₁, h₂⟩ := exec_bind_iff.mp hrun
  obtain ⟨hA₁, hA₂⟩ := List.forall_mem_append.mp hA
  exact hf a s₁ (hp t₁ a s₁ h₁ hA₁) t₂ b s' h₂ hA₂

/-- What every call keeps is left. -/
theorem leaves_of_keeps {P : Op → Prop} {K : σ → Prop}
    (hserve : ∀ op s r s', P op → serves op s r s' → K s → K s') (hp : p.OnlyCalls P) (hs : K s) :
    p.Leaves serves A s fun _ s' => K s' :=
  fun _ _ _ hrun _ => hrun.keeps hserve hp hs

end Program

namespace Fallible

theorem leaves_request {op : Op} {answer : Res op → Except ε α} {Q : Except ε α → σ → Prop}
    (h : ∀ res s', serves op s res s' → A ⟨op, res, s, s'⟩ → Q (answer res) s') :
    (request op answer : Fallible Op Res ε α).run.Leaves serves A s Q := by
  intro t r s' hrun hA
  obtain ⟨res, rfl, hres, rfl⟩ := exec_request hrun
  exact h res s' hres (hA _ List.mem_cons_self)

theorem leaves_pure {a : α} {Q : Except ε α → σ → Prop} (h : Q (.ok a) s) :
    (pure a : Fallible Op Res ε α).run.Leaves serves A s Q := leaves_done h

/-- In a sequence, what the first program raises is raised. -/
theorem leaves_bind {Q : Except ε α → σ → Prop} {R : Except ε β → σ → Prop}
    {p : Fallible Op Res ε α} {f : α → Fallible Op Res ε β} (hp : p.run.Leaves serves A s Q)
    (hok : ∀ a s', Q (.ok a) s' → (f a).run.Leaves serves A s' R)
    (herror : ∀ e s', Q (.error e) s' → R (.error e) s') : (p >>= f).run.Leaves serves A s R := by
  refine Leaves.bind hp fun r s' hr => ?_
  cases r with
  | ok a => exact hok a s' hr
  | error e => exact leaves_done (herror e s' hr)

end Fallible

end Interaction
