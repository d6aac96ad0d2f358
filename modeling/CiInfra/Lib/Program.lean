import Mathlib.Logic.Function.Basic
import Mathlib.Logic.Relation

/-!
# Programs that talk to an environment

A program is a finite tree of calls: each call names an operation and continues
with whatever the environment answers. The tree fixes what the program does for
every possible answer, so properties of all runs, of one sequential run, and of
all interleavings with other parties are stated about the same object.
-/

namespace Interaction

/-- A program issuing operations of type `Op`. The answer to `op` has type `Res op`. -/
inductive Program (Op : Type) (Res : Op → Type) (α : Type) where
  /-- The program has returned. -/
  | done (a : α)
  /-- The program issues `op` and continues with its answer. -/
  | call (op : Op) (next : Res op → Program Op Res α)

variable {Op : Type} {Res : Op → Type} {α β σ ι : Type}

namespace Program

/-- Run `p` and continue with its result. -/
def bind : Program Op Res α → (α → Program Op Res β) → Program Op Res β
  | done a, f => f a
  | call op next, f => call op fun r => (next r).bind f

instance : Monad (Program Op Res) where
  pure := done
  bind := bind

@[simp] theorem pure_eq (a : α) : (pure a : Program Op Res α) = done a := rfl

@[simp] theorem bind_eq (p : Program Op Res α) (f : α → Program Op Res β) :
    p >>= f = p.bind f := rfl

@[simp] theorem done_bind (a : α) (f : α → Program Op Res β) : (done a).bind f = f a := rfl

@[simp] theorem call_bind (op : Op) (next : Res op → Program Op Res α)
    (f : α → Program Op Res β) :
    (call op next).bind f = call op fun r => (next r).bind f := rfl

/-- Run a program for each element of a list, from left to right. -/
def forEach (f : β → Program Op Res Unit) : List β → Program Op Res Unit
  | [] => done ()
  | b :: bs => (f b).bind fun _ => forEach f bs

/-! ### Properties of every call -/

/-- Every operation the program can issue, whatever it is answered, satisfies `P`. -/
def OnlyCalls (P : Op → Prop) : Program Op Res α → Prop
  | done _ => True
  | call op next => P op ∧ ∀ r, (next r).OnlyCalls P

@[simp] theorem onlyCalls_done (P : Op → Prop) (a : α) :
    (done a : Program Op Res α).OnlyCalls P := trivial

@[simp] theorem onlyCalls_call {P : Op → Prop} {op : Op} {next : Res op → Program Op Res α} :
    (call op next).OnlyCalls P ↔ P op ∧ ∀ r, (next r).OnlyCalls P := Iff.rfl

/-- Sequencing keeps a property of all calls. -/
theorem OnlyCalls.bind {P : Op → Prop} {p : Program Op Res α} {f : α → Program Op Res β}
    (hp : p.OnlyCalls P) (hf : ∀ a, (f a).OnlyCalls P) : (p.bind f).OnlyCalls P := by
  induction p with
  | done a => exact hf a
  | call op next ih => exact ⟨hp.1, fun r => ih r (hp.2 r)⟩

theorem OnlyCalls.mono {P Q : Op → Prop} {p : Program Op Res α} (hp : p.OnlyCalls P)
    (h : ∀ op, P op → Q op) : p.OnlyCalls Q := by
  induction p with
  | done a => trivial
  | call op next ih => exact ⟨h op hp.1, fun r => ih r (hp.2 r)⟩

/-- What holds of every operation holds of all calls. -/
theorem onlyCalls_of_forall {P : Op → Prop} (h : ∀ op, P op) (p : Program Op Res α) :
    p.OnlyCalls P := by
  induction p with
  | done a => trivial
  | call op next ih => exact ⟨h op, ih⟩

/-- A loop keeps a property of all calls that its body has for every element. -/
theorem onlyCalls_forEach {P : Op → Prop} {f : β → Program Op Res Unit} {bs : List β}
    (hf : ∀ b ∈ bs, (f b).OnlyCalls P) : (forEach f bs).OnlyCalls P := by
  induction bs with
  | nil => trivial
  | cons b bs ih =>
    exact (hf b (by simp)).bind fun _ => ih fun c hc => hf c (by simp [hc])

/-! ### Properties of every result -/

/-- Whatever the program is answered, what it returns satisfies `P`. -/
def AllReturn (P : α → Prop) : Program Op Res α → Prop
  | done a => P a
  | call _ next => ∀ r, (next r).AllReturn P

theorem AllReturn.mono {P Q : α → Prop} {p : Program Op Res α} (hp : p.AllReturn P)
    (h : ∀ a, P a → Q a) : p.AllReturn Q := by
  induction p with
  | done a => exact h a hp
  | call op next ih => exact fun r => ih r (hp r)

/-- A sequential composition returns what its second program returns. -/
theorem AllReturn.bind {P : β → Prop} (p : Program Op Res α) {f : α → Program Op Res β}
    (hf : ∀ a, (f a).AllReturn P) : (p.bind f).AllReturn P := by
  induction p with
  | done a => exact hf a
  | call op next ih => exact ih

/-! ### Traces -/

/-- One call together with its answer. -/
abbrev Event (Op : Type) (Res : Op → Type) := (op : Op) × Res op

/-- `Trace p t q`: after the calls and answers in `t`, program `p` has become `q`. -/
inductive Trace : Program Op Res α → List (Event Op Res) → Program Op Res α → Prop
  | nil (p : Program Op Res α) : Trace p [] p
  | cons {op : Op} {next : Res op → Program Op Res α} {t : List (Event Op Res)}
      {q : Program Op Res α} (r : Res op) (h : Trace (next r) t q) :
      Trace (call op next) (⟨op, r⟩ :: t) q

@[simp] theorem trace_done_iff {a : α} {t : List (Event Op Res)} {q : Program Op Res α} :
    Trace (done a) t q ↔ t = [] ∧ q = done a := by
  constructor
  · rintro ⟨⟩
    exact ⟨rfl, rfl⟩
  · rintro ⟨rfl, rfl⟩
    exact Trace.nil _

/-- A program that begins with a call and has returned has made that call. -/
@[simp] theorem trace_call_done_iff {op : Op} {next : Res op → Program Op Res α}
    {t : List (Event Op Res)} {a : α} :
    Trace (call op next) t (done a) ↔ ∃ r t', t = ⟨op, r⟩ :: t' ∧ Trace (next r) t' (done a) := by
  constructor
  · rintro ⟨⟩
    exact ⟨_, _, rfl, ‹_›⟩
  · rintro ⟨r, t', rfl, h⟩
    exact Trace.cons r h

/-- A sequential composition that has returned has run both programs to their results. -/
theorem trace_bind_done_iff {p : Program Op Res α} {f : α → Program Op Res β}
    {t : List (Event Op Res)} {b : β} :
    Trace (p.bind f) t (done b) ↔
      ∃ a t₁ t₂, t = t₁ ++ t₂ ∧ Trace p t₁ (done a) ∧ Trace (f a) t₂ (done b) := by
  induction p generalizing t with
  | done a =>
    constructor
    · exact fun h => ⟨a, [], t, rfl, Trace.nil _, h⟩
    · rintro ⟨_, _, _, rfl, ⟨⟩, h⟩
      exact h
  | call op next ih =>
    simp only [call_bind, trace_call_done_iff, ih]
    constructor
    · rintro ⟨r, _, rfl, a, t₁, t₂, rfl, h₁, h₂⟩
      exact ⟨a, _ :: t₁, t₂, rfl, ⟨r, t₁, rfl, h₁⟩, h₂⟩
    · rintro ⟨a, _, t₂, rfl, ⟨r, t₁, rfl, h₁⟩, h₂⟩
      exact ⟨r, t₁ ++ t₂, rfl, a, t₁, t₂, rfl, h₁, h₂⟩

/-- A trace goes on with the next call of the program it led to. -/
theorem Trace.snoc {p : Program Op Res α} {t : List (Event Op Res)} {op : Op}
    {next : Res op → Program Op Res α} (h : Trace p t (call op next)) (r : Res op) :
    Trace p (t ++ [⟨op, r⟩]) (next r) := by
  generalize hq : call op next = q at h
  induction h with
  | nil p =>
    subst hq
    exact .cons r (.nil _)
  | cons r' _ ih => exact .cons r' (ih hq)

/-- What all returned values satisfy, the value that a trace returns satisfies. -/
theorem AllReturn.of_trace {P : α → Prop} {p : Program Op Res α} {t : List (Event Op Res)} {a : α}
    (hp : p.AllReturn P) (ht : Trace p t (done a)) : P a := by
  induction p generalizing t with
  | done b =>
    obtain ⟨-, hdone⟩ := trace_done_iff.mp ht
    obtain rfl := Program.done.inj hdone
    exact hp
  | call op next ih =>
    obtain ⟨r, t', rfl, ht'⟩ := trace_call_done_iff.mp ht
    exact ih r (hp r) ht'

/-- A property of all calls holds along every trace. -/
theorem OnlyCalls.of_trace {P : Op → Prop} {p q : Program Op Res α} {t : List (Event Op Res)}
    (hp : p.OnlyCalls P) (ht : Trace p t q) : ∀ e ∈ t, P e.1 := by
  induction ht with
  | nil => simp
  | cons r _ ih =>
    intro e he
    rcases List.mem_cons.mp he with rfl | he
    · exact hp.1
    · exact ih (hp.2 r) e he

/-- A trace of a sequential composition stays within the first program, or
runs it to its result and continues with a trace of the second. -/
theorem Trace.bind_cases {p : Program Op Res α} {f : α → Program Op Res β}
    {t : List (Event Op Res)} {q : Program Op Res β} (h : Trace (p.bind f) t q) :
    (∃ p', Trace p t p' ∧ q = p'.bind f) ∨
      ∃ a t₁ t₂, t = t₁ ++ t₂ ∧ Trace p t₁ (done a) ∧ Trace (f a) t₂ q := by
  induction p generalizing t with
  | done a => exact Or.inr ⟨a, [], t, rfl, Trace.nil _, h⟩
  | call op next ih =>
    cases h with
    | nil => exact Or.inl ⟨_, Trace.nil _, rfl⟩
    | cons r h =>
      rcases ih r h with ⟨p', hp', rfl⟩ | ⟨a, t₁, t₂, rfl, h₁, h₂⟩
      · exact Or.inl ⟨p', Trace.cons r hp', rfl⟩
      · exact Or.inr ⟨a, _ :: t₁, t₂, rfl, Trace.cons r h₁, h₂⟩

/-- As long as all answers satisfy `A`, every operation the program can issue satisfies `P`. -/
def OnlyCallsWhile (A : Event Op Res → Prop) (P : Op → Prop) : Program Op Res α → Prop
  | done _ => True
  | call op next => P op ∧ ∀ r, A ⟨op, r⟩ → (next r).OnlyCallsWhile A P

theorem OnlyCallsWhile.bind {A : Event Op Res → Prop} {P : Op → Prop} {p : Program Op Res α}
    {f : α → Program Op Res β} (hp : p.OnlyCallsWhile A P) (hf : ∀ a, (f a).OnlyCallsWhile A P) :
    (p.bind f).OnlyCallsWhile A P := by
  induction p with
  | done a => exact hf a
  | call op next ih => exact ⟨hp.1, fun r hr => ih r (hp.2 r hr)⟩

theorem OnlyCallsWhile.of_trace {A : Event Op Res → Prop} {P : Op → Prop} {p q : Program Op Res α}
    {t : List (Event Op Res)} (hp : p.OnlyCallsWhile A P) (ht : Trace p t q)
    (hanswers : ∀ e ∈ t, A e) : ∀ e ∈ t, P e.1 := by
  induction ht with
  | nil => simp
  | cons r _ ih =>
    obtain ⟨hhead, htail⟩ := List.forall_mem_cons.mp hanswers
    exact List.forall_mem_cons.mpr ⟨hp.1, ih (hp.2 r hhead) htail⟩

/-- As long as all answers satisfy `A`, every call satisfies `P`, and what the program returns
satisfies `Q`. -/
def Within (A : Event Op Res → Prop) (P : Op → Prop) (Q : α → Prop) : Program Op Res α → Prop
  | done a => Q a
  | call op next => P op ∧ ∀ r, A ⟨op, r⟩ → (next r).Within A P Q

section Within

variable {A : Event Op Res → Prop} {P P' : Op → Prop} {Q Q' : α → Prop}

/-- A property of all calls holds whatever the answers. -/
theorem OnlyCalls.within {p : Program Op Res α} (h : p.OnlyCalls P) :
    p.Within A P fun _ => True := by
  induction p with
  | done a => trivial
  | call op next ih => exact ⟨h.1, fun r _ => ih r (h.2 r)⟩

/-- What holds of all calls for any answers holds of all calls. -/
theorem Within.onlyCalls {p : Program Op Res α} (h : p.Within (fun _ => True) P Q) :
    p.OnlyCalls P := by
  induction p with
  | done a => trivial
  | call op next ih => exact ⟨h.1, fun r => ih r (h.2 r trivial)⟩

theorem Within.mono {p : Program Op Res α} (h : p.Within A P Q) (hP : ∀ op, P op → P' op)
    (hQ : ∀ a, Q a → Q' a) : p.Within A P' Q' := by
  induction p with
  | done a => exact hQ a h
  | call op next ih => exact ⟨hP op h.1, fun r hr => ih r (h.2 r hr)⟩

/-- In a sequence, the second program may rely on what the first one returns. -/
theorem Within.bind {R : β → Prop} {p : Program Op Res α} {f : α → Program Op Res β}
    (hp : p.Within A P Q) (hf : ∀ a, Q a → (f a).Within A P R) : (p.bind f).Within A P R := by
  induction p with
  | done a => exact hf a hp
  | call op next ih => exact ⟨hp.1, fun r hr => ih r (hp.2 r hr)⟩

/-- Along a trace whose answers satisfy `A`, every call satisfies `P`. -/
theorem Within.of_trace {p q : Program Op Res α} {t : List (Event Op Res)} (hp : p.Within A P Q)
    (ht : Trace p t q) (hanswers : ∀ e ∈ t, A e) : (∀ e ∈ t, P e.1) ∧ q.Within A P Q := by
  induction ht with
  | nil => exact ⟨by simp, hp⟩
  | cons r _ ih =>
    obtain ⟨hhead, htail⟩ := List.forall_mem_cons.mp hanswers
    obtain ⟨hcalls, hrest⟩ := ih (hp.2 r hhead) htail
    exact ⟨List.forall_mem_cons.mpr ⟨hp.1, hcalls⟩, hrest⟩

end Within

/-! ### Given what went before -/

/-- Every call satisfies `P` with the calls before it, and what the program returns satisfies `Q`
with all of them, the latest first. -/
def Heeds (P : List (Event Op Res) → Op → Prop) (Q : List (Event Op Res) → α → Prop) :
    List (Event Op Res) → Program Op Res α → Prop
  | past, done a => Q past a
  | past, call op next => P past op ∧ ∀ r, Heeds P Q (⟨op, r⟩ :: past) (next r)

section Heeds

variable {P : List (Event Op Res) → Op → Prop} {Q : List (Event Op Res) → α → Prop}
  {past : List (Event Op Res)}

theorem Heeds.mono {Q' : List (Event Op Res) → α → Prop} {p : Program Op Res α}
    (hp : p.Heeds P Q past) (hQ : ∀ past a, Q past a → Q' past a) : p.Heeds P Q' past := by
  induction p generalizing past with
  | done a => exact hQ past a hp
  | call op next ih => exact ⟨hp.1, fun r => ih r (hp.2 r)⟩

/-- What every call keeps, a program keeps. -/
theorem Heeds.keeps {K : List (Event Op Res) → Prop} {p : Program Op Res α} (hp : p.Heeds P Q past)
    (hkeep : ∀ past c, K past → K (c :: past)) (hK : K past) :
    p.Heeds P (fun past a => Q past a ∧ K past) past := by
  induction p generalizing past with
  | done a => exact ⟨hp, hK⟩
  | call op next ih => exact ⟨hp.1, fun r => ih r (hp.2 r) (hkeep _ _ hK)⟩

/-- In a sequence, the second program goes on from what the first one has done. -/
theorem Heeds.bind {R : List (Event Op Res) → β → Prop} {p : Program Op Res α}
    {f : α → Program Op Res β} (hp : p.Heeds P Q past)
    (hf : ∀ past a, Q past a → (f a).Heeds P R past) : (p.bind f).Heeds P R past := by
  induction p generalizing past with
  | done a => exact hf past a hp
  | call op next ih => exact ⟨hp.1, fun r => ih r (hp.2 r)⟩

/-- What calls of one kind keep holds at their end, if it is all that they need. -/
theorem OnlyCalls.heeds {R : Op → Prop} {K : List (Event Op Res) → Prop} {p : Program Op Res α}
    (h : p.OnlyCalls R) (hcall : ∀ past op, K past → R op → P past op)
    (hkeep : ∀ past op r, K past → R op → K (⟨op, r⟩ :: past)) (hpast : K past) :
    p.Heeds P (fun past _ => K past) past := by
  induction p generalizing past with
  | done a => exact hpast
  | call op next ih =>
    exact ⟨hcall past op hpast h.1, fun r => ih r (h.2 r) (hkeep past op r hpast h.1)⟩

/-- What is returned follows, for each assumption, from the answers that satisfy it. -/
theorem Within.heeds {κ : Type} {A : κ → Event Op Res → Prop} {R : Op → Prop} {Q₀ : α → Prop}
    {Q' : κ → α → Prop} {p : Program Op Res α} (hp : p.Within (fun _ => True) R Q₀)
    (hcall : ∀ past op, R op → P past op)
    (h : ∀ k, (∀ c ∈ past, A k c) → p.Within (A k) (fun _ => True) (Q' k)) :
    p.Heeds P (fun past a => Q₀ a ∧ ∀ k, (∀ c ∈ past, A k c) → Q' k a) past := by
  induction p generalizing past with
  | done a => exact ⟨hp, h⟩
  | call op next ih =>
    refine ⟨hcall past op hp.1, fun r => ih r (hp.2 r trivial) fun k hk => ?_⟩
    obtain ⟨hr, hpast⟩ := List.forall_mem_cons.mp hk
    exact (h k hpast).2 r hr

/-- What a program does after some calls is what it does. -/
theorem Heeds.since {p : Program Op Res α} (hp : p.Heeds P Q past) (before : List (Event Op Res)) :
    p.Heeds (fun past op => ∃ since, past = since ++ before ∧ P since op)
      (fun past a => ∃ since, past = since ++ before ∧ Q since a) (past ++ before) := by
  induction p generalizing past with
  | done a => exact ⟨past, rfl, hp⟩
  | call op next ih => exact ⟨⟨past, rfl, hp.1⟩, fun r => ih r (hp.2 r)⟩

theorem Heeds.mono_calls {P' : List (Event Op Res) → Op → Prop} {p : Program Op Res α}
    (hp : p.Heeds P Q past) (hP : ∀ past op, P past op → P' past op) : p.Heeds P' Q past := by
  induction p generalizing past with
  | done a => exact hp
  | call op next ih => exact ⟨hP past op hp.1, fun r => ih r (hp.2 r)⟩

/-- A property of all calls holds of them with the calls before them. -/
theorem Heeds.and_onlyCalls {R : Op → Prop} {p : Program Op Res α} (hp : p.Heeds P Q past)
    (hR : p.OnlyCalls R) : p.Heeds (fun past op => P past op ∧ R op) Q past := by
  induction p generalizing past with
  | done a => exact hp
  | call op next ih => exact ⟨⟨hp.1, hR.1⟩, fun r => ih r (hp.2 r) (hR.2 r)⟩

/-- Along a trace, the rest of the program goes on from it. -/
theorem Heeds.of_trace {p q : Program Op Res α} {t : List (Event Op Res)} (hp : p.Heeds P Q past)
    (ht : Trace p t q) : q.Heeds P Q (t.reverse ++ past) := by
  induction ht generalizing past with
  | nil => exact hp
  | cons r _ ih => simpa using ih (hp.2 r)

end Heeds

/-- From any call that satisfies `M` on, as long as all answers satisfy `A`, every call satisfies
`P`. -/
def WithinFrom (M : Op → Prop) (A : Event Op Res → Prop) (P : Op → Prop) :
    Program Op Res α → Prop
  | done _ => True
  | call op next => (M op → (call op next).Within A P fun _ => True) ∧
      ∀ r, A ⟨op, r⟩ → (next r).WithinFrom M A P

section WithinFrom

variable {M : Op → Prop} {A : Event Op Res → Prop} {P : Op → Prop} {Q : α → Prop}

theorem Within.from {p : Program Op Res α} (h : p.Within A P Q) : p.WithinFrom M A P := by
  induction p with
  | done a => trivial
  | call op next ih =>
    exact ⟨fun _ => Within.mono h (fun _ h => h) fun _ _ => trivial, fun r hr => ih r (h.2 r hr)⟩

/-- A program without such a call. -/
theorem OnlyCalls.withinFrom {p : Program Op Res α} (h : p.OnlyCalls fun op => ¬ M op) :
    p.WithinFrom M A P := by
  induction p with
  | done a => trivial
  | call op next ih => exact ⟨fun hop => (h.1 hop).elim, fun r _ => ih r (h.2 r)⟩

/-- What comes before any such call may be anything. -/
theorem WithinFrom.bind {p : Program Op Res α} {f : α → Program Op Res β}
    (hp : p.OnlyCalls fun op => ¬ M op) (hf : ∀ a, (f a).WithinFrom M A P) :
    (p.bind f).WithinFrom M A P := by
  induction p with
  | done a => exact hf a
  | call op next ih => exact ⟨fun hop => (hp.1 hop).elim, fun r _ => ih r (hp.2 r)⟩

/-- After a call that satisfies `M`, the rest of the program is within `A` and `P`. -/
theorem WithinFrom.of_trace {p q : Program Op Res α} {t : List (Event Op Res)}
    (hp : p.WithinFrom M A P) (ht : Trace p t q) (hanswers : ∀ e ∈ t, A e)
    (hM : ∃ e ∈ t, M e.1) : q.Within A P fun _ => True := by
  induction ht with
  | nil => simp at hM
  | cons r htail ih =>
    obtain ⟨hhead, hrest⟩ := List.forall_mem_cons.mp hanswers
    obtain ⟨e, he, heM⟩ := hM
    rcases List.mem_cons.mp he with rfl | he
    · exact ((hp.1 heM).2 r hhead |>.of_trace htail hrest).2
    · exact ih (hp.2 r hhead) hrest ⟨e, he, heM⟩

end WithinFrom

/-! ### Runs alone -/

/-- A call with its answer and the states before and after it. -/
structure Served (Op : Type) (Res : Op → Type) (σ : Type) where
  op : Op
  res : Res op
  before : σ
  after : σ

/-- `Exec serves p s t a s'`: running alone from the state `s`, with the calls `t`, the program
returns `a` and leaves the state `s'`. -/
inductive Exec (serves : (op : Op) → σ → Res op → σ → Prop) :
    Program Op Res α → σ → List (Served Op Res σ) → α → σ → Prop
  | done (a : α) (s : σ) : Exec serves (done a) s [] a s
  | call {op : Op} {next : Res op → Program Op Res α} {s s₁ s' : σ} {r : Res op}
      {t : List (Served Op Res σ)} {a : α} (hr : serves op s r s₁)
      (h : Exec serves (next r) s₁ t a s') :
      Exec serves (call op next) s (⟨op, r, s, s₁⟩ :: t) a s'

section Exec

variable {serves : (op : Op) → σ → Res op → σ → Prop}

theorem exec_done_iff {a b : α} {s s' : σ} {t : List (Served Op Res σ)} :
    Exec serves (done a : Program Op Res α) s t b s' ↔ t = [] ∧ b = a ∧ s' = s := by
  constructor
  · rintro ⟨⟩
    exact ⟨rfl, rfl, rfl⟩
  · rintro ⟨rfl, rfl, rfl⟩
    exact .done _ _

theorem exec_call_iff {op : Op} {next : Res op → Program Op Res α} {s s' : σ}
    {t : List (Served Op Res σ)} {a : α} :
    Exec serves (call op next) s t a s' ↔
      ∃ r s₁ t', t = ⟨op, r, s, s₁⟩ :: t' ∧ serves op s r s₁ ∧ Exec serves (next r) s₁ t' a s' := by
  constructor
  · rintro ⟨⟩
    exact ⟨_, _, _, rfl, ‹_›, ‹_›⟩
  · rintro ⟨r, s₁, t', rfl, hr, h⟩
    exact .call hr h

/-- A sequential composition runs its first program and then its second. -/
theorem exec_bind_iff {p : Program Op Res α} {f : α → Program Op Res β} {s s' : σ}
    {t : List (Served Op Res σ)} {b : β} :
    Exec serves (p.bind f) s t b s' ↔
      ∃ a s₁ t₁ t₂, t = t₁ ++ t₂ ∧ Exec serves p s t₁ a s₁ ∧ Exec serves (f a) s₁ t₂ b s' := by
  induction p generalizing s t with
  | done a =>
    constructor
    · exact fun h => ⟨a, s, [], t, rfl, .done _ _, h⟩
    · rintro ⟨_, _, _, _, rfl, ⟨⟩, h⟩
      exact h
  | call op next ih =>
    simp only [call_bind, exec_call_iff, ih]
    constructor
    · rintro ⟨r, s₁, _, rfl, hr, a, s₂, t₁, t₂, rfl, h₁, h₂⟩
      exact ⟨a, s₂, _ :: t₁, t₂, rfl, ⟨r, s₁, t₁, rfl, hr, h₁⟩, h₂⟩
    · rintro ⟨a, s₂, _, t₂, rfl, ⟨r, s₁, t₁, rfl, hr, h₁⟩, h₂⟩
      exact ⟨r, s₁, t₁ ++ t₂, rfl, hr, a, s₂, t₁, t₂, rfl, h₁, h₂⟩

/-- What every call of a program keeps holds at its end. -/
theorem Exec.keeps {P : Op → Prop} {K : σ → Prop}
    (hserve : ∀ op s r s', P op → serves op s r s' → K s → K s') {p : Program Op Res α} {s s' : σ}
    {t : List (Served Op Res σ)} {a : α} (h : Exec serves p s t a s') (hp : p.OnlyCalls P)
    (hs : K s) : K s' := by
  induction h with
  | done => exact hs
  | call hr _ ih => exact ih (hp.2 _) (hserve _ _ _ _ hp.1 hr hs)

/-- What every call of a program keeps holds before each of its calls. -/
theorem Exec.keeps_before {P : Op → Prop} {K : σ → Prop}
    (hserve : ∀ op s r s', P op → serves op s r s' → K s → K s') {p : Program Op Res α} {s s' : σ}
    {t : List (Served Op Res σ)} {a : α} (h : Exec serves p s t a s') (hp : p.OnlyCalls P)
    (hs : K s) : ∀ x ∈ t, K x.before := by
  induction h with
  | done => simp
  | call hr _ ih =>
    exact List.forall_mem_cons.mpr ⟨hs, ih (hp.2 _) (hserve _ _ _ _ hp.1 hr hs)⟩

/-- What holds after a call of a run and is kept by every call holds at the end of the run. -/
theorem Exec.keeps_since {P : Op → Prop} {K : σ → Prop}
    (hserve : ∀ op s r s', P op → serves op s r s' → K s → K s') {p : Program Op Res α} {s s' : σ}
    {t : List (Served Op Res σ)} {a : α} (h : Exec serves p s t a s') (hp : p.OnlyCalls P)
    {x : Served Op Res σ} (hx : x ∈ t) (hK : K x.after) : K s' := by
  induction h with
  | done => cases hx
  | call hr h ih =>
    rcases List.mem_cons.mp hx with rfl | hx
    · exact h.keeps hserve (hp.2 _) hK
    · exact ih (hp.2 _) hx

/-- A property of all calls holds of those made in a run. -/
theorem Exec.calls {P : Op → Prop} {p : Program Op Res α} {s s' : σ} {t : List (Served Op Res σ)}
    {a : α} (h : Exec serves p s t a s') (hp : p.OnlyCalls P) : ∀ x ∈ t, P x.op := by
  induction h with
  | done => simp
  | call _ _ ih => exact List.forall_mem_cons.mpr ⟨hp.1, ih (hp.2 _)⟩

/-- Every call in a run was answered as calls are. -/
theorem Exec.served {p : Program Op Res α} {s s' : σ} {t : List (Served Op Res σ)} {a : α}
    (h : Exec serves p s t a s') : ∀ x ∈ t, serves x.op x.before x.res x.after := by
  induction h with
  | done => simp
  | call hr _ ih => exact List.forall_mem_cons.mpr ⟨hr, ih⟩

/-- Two runs of a program from one state that were answered alike are one run. -/
theorem Exec.unique {p : Program Op Res α} {s s₁ s₂ : σ} {t₁ t₂ u₁ u₂ : List (Served Op Res σ)}
    {a₁ a₂ : α} (h₁ : Exec serves p s t₁ a₁ s₁) (h₂ : Exec serves p s t₂ a₂ s₂)
    (ht : t₁ ++ u₁ = t₂ ++ u₂) : t₁ = t₂ ∧ a₁ = a₂ ∧ s₁ = s₂ := by
  induction h₁ generalizing t₂ with
  | done =>
    obtain ⟨rfl, rfl, rfl⟩ := exec_done_iff.mp h₂
    exact ⟨rfl, rfl, rfl⟩
  | call _ _ ih =>
    obtain ⟨r, s', t', rfl, -, h₂⟩ := exec_call_iff.mp h₂
    obtain ⟨hhead, htail⟩ := List.cons.inj ht
    cases hhead
    obtain ⟨rfl, rfl, rfl⟩ := ih h₂ htail
    exact ⟨rfl, rfl, rfl⟩

/-- As long as the answers satisfy `A`, a program within `P` and `Q` makes calls that satisfy `P`
and returns what satisfies `Q`. -/
theorem Exec.within {A : Event Op Res → Prop} {P : Op → Prop} {Q : α → Prop}
    {p : Program Op Res α} {s s' : σ} {t : List (Served Op Res σ)} {a : α}
    (h : Exec serves p s t a s') (hp : p.Within A P Q) (ht : ∀ x ∈ t, A ⟨x.op, x.res⟩) :
    (∀ x ∈ t, P x.op) ∧ Q a := by
  induction h with
  | done => exact ⟨by simp, hp⟩
  | call _ _ ih =>
    obtain ⟨hhead, htail⟩ := List.forall_mem_cons.mp ht
    obtain ⟨hcalls, hresult⟩ := ih (hp.2 _ hhead) htail
    exact ⟨List.forall_mem_cons.mpr ⟨hp.1, hcalls⟩, hresult⟩

end Exec

/-! ### Sequential runs against one server -/

/-- Run a program to its end against a server that answers every call at once. -/
def run (serve : (op : Op) → σ → Res op × σ) : Program Op Res α → σ → α × σ
  | done a, s => (a, s)
  | call op next, s => (next (serve op s).1).run serve (serve op s).2

variable {serve : (op : Op) → σ → Res op × σ}

@[simp] theorem run_done (a : α) (s : σ) :
    (done a : Program Op Res α).run serve s = (a, s) := rfl

@[simp] theorem run_call (op : Op) (next : Res op → Program Op Res α) (s : σ) :
    (call op next).run serve s = (next (serve op s).1).run serve (serve op s).2 := rfl

/-- A run of a sequential composition is a run of the first program followed
by a run of the second from the state it left. -/
@[simp] theorem run_bind (p : Program Op Res α) (f : α → Program Op Res β) (s : σ) :
    (p.bind f).run serve s = (f (p.run serve s).1).run serve (p.run serve s).2 := by
  induction p generalizing s with
  | done a => rfl
  | call op next ih => exact ih _ _

/-- The calls that a program makes in a run, the earliest first. -/
def calls (serve : (op : Op) → σ → Res op × σ) : Program Op Res α → σ → List Op
  | done _, _ => []
  | call op next, s => op :: (next (serve op s).1).calls serve (serve op s).2

@[simp] theorem calls_done (a : α) (s : σ) :
    (done a : Program Op Res α).calls serve s = [] := rfl

@[simp] theorem calls_call (op : Op) (next : Res op → Program Op Res α) (s : σ) :
    (call op next).calls serve s = op :: (next (serve op s).1).calls serve (serve op s).2 := rfl

@[simp] theorem calls_bind (p : Program Op Res α) (f : α → Program Op Res β) (s : σ) :
    (p.bind f).calls serve s =
      p.calls serve s ++ (f (p.run serve s).1).calls serve (p.run serve s).2 := by
  induction p generalizing s with
  | done a => rfl
  | call op next ih => simp only [call_bind, calls_call, run_call, ih, List.cons_append]

/-- The calls that a program makes in a run, with their answers and the states around them. -/
def exchanges (serve : (op : Op) → σ → Res op × σ) : Program Op Res α → σ → List (Served Op Res σ)
  | done _, _ => []
  | call op next, s =>
    ⟨op, (serve op s).1, s, (serve op s).2⟩ ::
      (next (serve op s).1).exchanges serve (serve op s).2

/-- A run against a server that answers as calls are answered is a run alone. -/
theorem exec_run {serves : (op : Op) → σ → Res op → σ → Prop}
    (hserve : ∀ op s, serves op s (serve op s).1 (serve op s).2) (p : Program Op Res α) (s : σ) :
    Exec serves p s (p.exchanges serve s) (p.run serve s).1 (p.run serve s).2 := by
  induction p generalizing s with
  | done a => exact .done a s
  | call op next ih => exact .call (hserve op s) (ih _ _)

/-- In a run, the server has answered every call. -/
theorem served_exchanges {p : Program Op Res α} {s : σ} {x : Served Op Res σ}
    (hx : x ∈ p.exchanges serve s) : x.res = (serve x.op x.before).1 := by
  induction p generalizing s with
  | done a => cases hx
  | call op next ih =>
    rcases List.mem_cons.mp hx with rfl | hx
    · rfl
    · exact ih _ hx

/-- The calls of a run with their answers are a trace. -/
theorem trace_exchanges (p : Program Op Res α) (s : σ) :
    Trace p ((p.exchanges serve s).map fun x => ⟨x.op, x.res⟩) (done (p.run serve s).1) := by
  induction p generalizing s with
  | done a => exact .nil _
  | call op next ih => exact .cons _ (ih _ _)

/-- A property of all calls holds of those made in a run. -/
theorem OnlyCalls.of_mem_calls {P : Op → Prop} {p : Program Op Res α} (hp : p.OnlyCalls P) {s : σ}
    {op : Op} (h : op ∈ p.calls serve s) : P op := by
  induction p generalizing s with
  | done a => cases h
  | call op' next ih =>
    rcases List.mem_cons.mp h with rfl | h
    · exact hp.1
    · exact ih _ (hp.2 _) h

/-- What a program always returns, it returns in a run. -/
theorem AllReturn.run {P : α → Prop} {p : Program Op Res α} (hp : p.AllReturn P) (s : σ) :
    P (p.run serve s).1 := by
  induction p generalizing s with
  | done a => exact hp
  | call op next ih => exact ih _ (hp _) _

/-- A run leaves a trace, in which every answer was given in a state with the invariant. -/
theorem exists_trace_run {P : Op → Prop} {I : σ → Prop}
    (hserve : ∀ op, P op → ∀ s, I s → I (serve op s).2)
    {p : Program Op Res α} (hp : p.OnlyCalls P) {s : σ} (hs : I s) :
    ∃ t, Trace p t (done (p.run serve s).1) ∧
      ∀ e ∈ t, ∃ s', I s' ∧ e.2 = (serve e.1 s').1 := by
  induction p generalizing s with
  | done a => exact ⟨[], Trace.nil _, by simp⟩
  | call op next ih =>
    obtain ⟨t, ht, hevents⟩ := ih _ (hp.2 _) (hserve op hp.1 s hs)
    refine ⟨_, Trace.cons _ ht, fun e he => ?_⟩
    rcases List.mem_cons.mp he with rfl | he
    · exact ⟨s, hs, rfl⟩
    · exact hevents e he

/-- If the server's answers to the calls of `p` keep an invariant, so does the run. -/
theorem run_invariant {P : Op → Prop} {I : σ → Prop}
    (hserve : ∀ op, P op → ∀ s, I s → I (serve op s).2)
    {p : Program Op Res α} (hp : p.OnlyCalls P) {s : σ} (hs : I s) : I (p.run serve s).2 := by
  induction p generalizing s with
  | done a => exact hs
  | call op next ih => exact ih _ (hp.2 _) (hserve op hp.1 s hs)

end Program

/-! ### Interleavings -/

open Program

/-- Any family of programs sharing one state. -/
structure System (ι : Type) (Op : Type) (Res : Op → Type) (α σ : Type) where
  /-- The shared state. -/
  state : σ
  /-- What is left of each program. -/
  procs : ι → Program Op Res α

variable [DecidableEq ι]

/-- One step of a system: some program makes its next call, or the surroundings
change the shared state. `serves op s r s'` says that in state `s` the call `op` may be
answered `r`, leaving state `s'`. -/
inductive Step (serves : (op : Op) → σ → Res op → σ → Prop) (env : σ → σ → Prop) :
    System ι Op Res α σ → System ι Op Res α σ → Prop
  | proc {S : System ι Op Res α σ} {i : ι} {op : Op} {next : Res op → Program Op Res α}
      {r : Res op} {s' : σ} (hi : S.procs i = call op next) (hr : serves op S.state r s') :
      Step serves env S ⟨s', Function.update S.procs i (next r)⟩
  | env {S : System ι Op Res α σ} {s' : σ} (h : env S.state s') :
      Step serves env S ⟨s', S.procs⟩

/-- The systems reachable from `S` by any number of steps in any order. -/
abbrev Reachable (serves : (op : Op) → σ → Res op → σ → Prop) (env : σ → σ → Prop)
    (S T : System ι Op Res α σ) : Prop := Relation.ReflTransGen (Step serves env) S T

/-- What holds initially and is preserved by every step holds of every reachable system. -/
theorem Reachable.induct {serves : (op : Op) → σ → Res op → σ → Prop} {env : σ → σ → Prop}
    {I : System ι Op Res α σ → Prop} {S T : System ι Op Res α σ} (h : Reachable serves env S T)
    (hinit : I S) (hstep : ∀ U V, I U → Step serves env U V → I V) : I T := by
  induction h with
  | refl => exact hinit
  | tail _ hUV ih => exact hstep _ _ ih hUV

/-- A program that runs alone to its end takes the system there: what the server answers
in a sequential run it may answer in an interleaved one. `view` is the shared part of the
server's state. -/
theorem Reachable.of_run {τ : Type} {serves : (op : Op) → σ → Res op → σ → Prop}
    (env : σ → σ → Prop) {serve : (op : Op) → τ → Res op × τ} {view : τ → σ} {P : Op → Prop}
    (hserve : ∀ op, P op → ∀ c, serves op (view c) (serve op c).1 (view (serve op c).2))
    {p : Program Op Res α} (hp : p.OnlyCalls P) (procs : ι → Program Op Res α) {i : ι}
    (hi : procs i = p) (c : τ) :
    Reachable serves env ⟨view c, procs⟩
      ⟨view (p.run serve c).2, Function.update procs i (done (p.run serve c).1)⟩ := by
  induction p generalizing c procs with
  | done a =>
    rw [run_done, ← hi, Function.update_eq_self]
  | call op next ih =>
    have hrest := ih (serve op c).1 (hp.2 _) (Function.update procs i (next (serve op c).1))
      (Function.update_self i _ procs) (serve op c).2
    rw [Function.update_idem] at hrest
    exact Relation.ReflTransGen.head (Step.proc hi (hserve op hp.1 c)) hrest

/-- Invariants that speak of one program and the state at a time: the acting
program must re-establish its own, and every change of state must keep the others'. -/
theorem Reachable.forall_procs {serves : (op : Op) → σ → Res op → σ → Prop}
    {env : σ → σ → Prop} {I : ι → σ → Program Op Res α → Prop} {S T : System ι Op Res α σ}
    (h : Reachable serves env S T) (hinit : ∀ i, I i S.state (S.procs i))
    (hproc : ∀ i s op next r s', I i s (call op next) → serves op s r s' → I i s' (next r))
    (hserve : ∀ i s op r s' p, I i s p → serves op s r s' → I i s' p)
    (henv : ∀ i s s' p, I i s p → env s s' → I i s' p) :
    ∀ i, I i T.state (T.procs i) := by
  refine h.induct (I := fun U => ∀ i, I i U.state (U.procs i)) hinit ?_
  intro U V hU hstep i
  cases hstep with
  | @proc j op next r s' hj hr =>
    by_cases hij : i = j
    · subst hij
      have hi := hU i
      rw [hj] at hi
      simpa only [Function.update_self] using hproc i _ op next r s' hi hr
    · simpa only [Function.update_of_ne hij] using hserve i _ op r s' _ (hU i) hr
  | env h => exact henv i _ _ _ (hU i) h

end Interaction

/-!
## Programs with calls of two kinds

A system may have programs that make calls of one kind and programs that also make calls of
another. The former take part in it as they are, and what is known of their calls stays known.
-/

namespace Interaction

namespace Program

/-- The answers to calls of either kind. -/
@[reducible] def EitherRes {Op₁ Op₂ : Type} (Res₁ : Op₁ → Type) (Res₂ : Op₂ → Type) :
    Op₁ ⊕ Op₂ → Type
  | .inl op => Res₁ op
  | .inr op => Res₂ op

variable {Op₁ Op₂ : Type} {Res₁ : Op₁ → Type} {Res₂ : Op₂ → Type} {α β : Type}

/-- A program with calls of the first kind, among calls of either kind. -/
def left : Program Op₁ Res₁ α → Program (Op₁ ⊕ Op₂) (EitherRes Res₁ Res₂) α
  | done a => done a
  | call op next => call (.inl op) fun r => (next r).left

/-- A call of the first kind with its answer. -/
def leftEvent (c : Event Op₁ Res₁) : Event (Op₁ ⊕ Op₂) (EitherRes Res₁ Res₂) := ⟨.inl c.1, c.2⟩

/-- Every call is of the first kind, and one that the program makes. -/
theorem OnlyCalls.left {P : Op₁ → Prop} {p : Program Op₁ Res₁ α} (h : p.OnlyCalls P) :
    (p.left : Program (Op₁ ⊕ Op₂) (EitherRes Res₁ Res₂) α).OnlyCalls
      fun op => ∃ op₁, op = .inl op₁ ∧ P op₁ := by
  induction p with
  | done a => trivial
  | call op next ih => exact ⟨⟨op, rfl, h.1⟩, fun r => ih r (h.2 r)⟩

/-- After any calls, the program heeds those that it has made itself. -/
theorem Heeds.left {P : List (Event Op₁ Res₁) → Op₁ → Prop}
    {Q : List (Event Op₁ Res₁) → α → Prop} {past : List (Event Op₁ Res₁)}
    {p : Program Op₁ Res₁ α} (h : p.Heeds P Q past)
    (before : List (Event (Op₁ ⊕ Op₂) (EitherRes Res₁ Res₂))) :
    p.left.Heeds
      (fun past' op => ∃ past op₁, past' = past.map leftEvent ++ before ∧ op = .inl op₁ ∧
        P past op₁)
      (fun past' a => ∃ past, past' = past.map leftEvent ++ before ∧ Q past a)
      (past.map leftEvent ++ before) := by
  induction p generalizing past with
  | done a => exact ⟨past, rfl, h⟩
  | call op next ih => exact ⟨⟨past, op, rfl, rfl, h.1⟩, fun r => ih r (h.2 r)⟩

end Program

end Interaction
