import CiInfra.Lib.Program

/-!
# Histories of interleaved programs

A history lists what has happened so far to a family of programs sharing one state, the
latest first: calls with their answers, and changes made by the surroundings, each with the
states around it. Properties of whole runs, in particular of what lies between two calls, are
properties of histories.
-/

namespace Interaction

open Program

/-- A call of a program, or a change made by the surroundings, with the shared states before
and after it. -/
structure Happening (ι Op : Type) (Res : Op → Type) (σ : Type) where
  /-- The program and its call with the answer; `none` for a change by the surroundings. -/
  call : Option (ι × Event Op Res)
  before : σ
  after : σ

variable {ι Op : Type} {Res : Op → Type} {α σ : Type}

/-- The call that a program makes in a happening. -/
def Happening.callOf [DecidableEq ι] (i : ι) (e : Happening ι Op Res σ) :
    Option (Event Op Res) :=
  match e.call with
  | some (j, c) => if j = i then some c else none
  | none => none

variable [DecidableEq ι]

theorem Happening.callOf_eq_some {i : ι} {e : Happening ι Op Res σ} {c : Event Op Res} :
    e.callOf i = some c ↔ e.call = some (i, c) := by
  unfold callOf
  split
  · rename_i j d hcall
    split
    · rename_i hj
      simp [hcall, hj]
    · rename_i hj
      simp [hcall, hj]
  · rename_i hcall
    simp [hcall]

/-- `History serves env S es T`: from `S`, the happenings `es` (latest first) lead to `T`. -/
inductive History (serves : (op : Op) → σ → Res op → σ → Prop) (env : σ → σ → Prop)
    (S : System ι Op Res α σ) : List (Happening ι Op Res σ) → System ι Op Res α σ → Prop
  | nil : History serves env S [] S
  | call {past : List (Happening ι Op Res σ)} {T : System ι Op Res α σ} {i : ι} {op : Op}
      {next : Res op → Program Op Res α} {r : Res op} {s' : σ}
      (h : History serves env S past T) (hi : T.procs i = call op next)
      (hr : serves op T.state r s') :
      History serves env S (⟨some (i, ⟨op, r⟩), T.state, s'⟩ :: past)
        ⟨s', Function.update T.procs i (next r)⟩
  | env {past : List (Happening ι Op Res σ)} {T : System ι Op Res α σ} {s' : σ}
      (h : History serves env S past T) (hs : env T.state s') :
      History serves env S (⟨none, T.state, s'⟩ :: past) ⟨s', T.procs⟩

/-- The calls of one program in a history, the earliest first. -/
def traceOf (i : ι) (es : List (Happening ι Op Res σ)) : List (Event Op Res) :=
  (es.filterMap (Happening.callOf i)).reverse

theorem traceOf_append (i : ι) (later earlier : List (Happening ι Op Res σ)) :
    traceOf i (later ++ earlier) = traceOf i earlier ++ traceOf i later := by
  rw [traceOf, List.filterMap_append, List.reverse_append]
  rfl

theorem traceOf_cons_of_call {i : ι} {e : Happening ι Op Res σ} {c : Event Op Res}
    (h : e.call = some (i, c)) (past : List (Happening ι Op Res σ)) :
    traceOf i (e :: past) = traceOf i past ++ [c] := by
  simp [traceOf, Happening.callOf_eq_some.mpr h]

namespace History

variable {serves : (op : Op) → σ → Res op → σ → Prop} {env : σ → σ → Prop}
  {S T : System ι Op Res α σ} {es past : List (Happening ι Op Res σ)} {e : Happening ι Op Res σ}

/-- Every call in a history was answered as calls are. -/
theorem served (h : History serves env S es T) {i : ι} {op : Op} {r : Res op} (he : e ∈ es)
    (hcall : e.call = some (i, ⟨op, r⟩)) : serves op e.before r e.after := by
  induction h with
  | nil => cases he
  | call _ _ hr ih =>
    rcases List.mem_cons.mp he with rfl | he
    · cases hcall
      exact hr
    · exact ih he
  | env _ _ ih =>
    rcases List.mem_cons.mp he with rfl | he
    · cases hcall
    · exact ih he

/-- Every other happening is a change that the surroundings make. -/
theorem changed (h : History serves env S es T) (he : e ∈ es) (hcall : e.call = none) :
    env e.before e.after := by
  induction h with
  | nil => cases he
  | call _ _ _ ih =>
    rcases List.mem_cons.mp he with rfl | he
    · cases hcall
    · exact ih he
  | env _ hs ih =>
    rcases List.mem_cons.mp he with rfl | he
    · exact hs
    · exact ih he

/-- What happened before the latest happening led to the state it found. -/
theorem tail (h : History serves env S (e :: past) T) :
    ∃ U : System ι Op Res α σ, History serves env S past U ∧ e.before = U.state ∧
      e.after = T.state := by
  cases h with
  | call h _ _ => exact ⟨_, h, rfl, rfl⟩
  | env h _ => exact ⟨_, h, rfl, rfl⟩

/-- The earlier part of a history is a history. -/
theorem earlier {later earlier : List (Happening ι Op Res σ)}
    (h : History serves env S (later ++ earlier) T) :
    ∃ U : System ι Op Res α σ, History serves env S earlier U := by
  induction later generalizing T with
  | nil => exact ⟨T, h⟩
  | cons d later ih =>
    obtain ⟨V, hV, -, -⟩ := h.tail
    exact ih hV

/-- What happened before any happening led to the state it found. -/
theorem before {later earlier : List (Happening ι Op Res σ)}
    (h : History serves env S (later ++ e :: earlier) T) :
    ∃ U : System ι Op Res α σ, History serves env S earlier U ∧ e.before = U.state := by
  obtain ⟨V, hV⟩ := h.earlier
  obtain ⟨U, hU, hbefore, -⟩ := hV.tail
  exact ⟨U, hU, hbefore⟩

/-- The calls of one program in a history are a trace of it. -/
theorem trace (h : History serves env S es T) (i : ι) :
    Trace (S.procs i) (traceOf i es) (T.procs i) := by
  induction h with
  | nil => exact Trace.nil _
  | @call past T j op next r s' _ hj _ ih =>
    by_cases hij : j = i
    · subst hij
      rw [hj] at ih
      simpa [traceOf, Happening.callOf] using ih.snoc r
    · have hi : Function.update T.procs j (next r) i = T.procs i :=
        Function.update_of_ne (Ne.symm hij) _ _
      simpa [traceOf, Happening.callOf, hij, hi] using ih
  | env _ _ ih => exact ih

/-- The calls in a history are calls that the programs make. -/
theorem calls {P : ι → Op → Prop} (h : History serves env S es T)
    (hS : ∀ i, (S.procs i).OnlyCalls (P i)) {i : ι} {op : Op} {r : Res op} (he : e ∈ es)
    (hcall : e.call = some (i, ⟨op, r⟩)) : P i op := by
  refine (hS i).of_trace (h.trace i) ⟨op, r⟩ (List.mem_reverse.mpr ?_)
  exact List.mem_filterMap.mpr ⟨e, he, by simp [Happening.callOf, hcall]⟩

theorem mem_traceOf {i : ι} {c : Event Op Res} :
    c ∈ traceOf i es ↔ ∃ e ∈ es, e.call = some (i, c) := by
  rw [traceOf, List.mem_reverse, List.mem_filterMap]
  exact exists_congr fun e => and_congr_right fun _ => Happening.callOf_eq_some

theorem mem_callsOf {i : ι} {c : Event Op Res} :
    c ∈ es.filterMap (Happening.callOf i) ↔ ∃ e ∈ es, e.call = some (i, c) := by
  rw [List.mem_filterMap]
  exact exists_congr fun e => and_congr_right fun _ => Happening.callOf_eq_some

/-- As long as the answers satisfy `A`, the calls in a history are calls that the programs make
under such answers. -/
theorem calls_within {A : Event Op Res → Prop} {P : ι → Op → Prop} {Q : α → Prop}
    (h : History serves env S es T) (hS : ∀ i, (S.procs i).Within A (P i) Q)
    (hanswers : ∀ e ∈ es, ∀ c ∈ e.call, A c.2) {i : ι} {op : Op} {r : Res op} (he : e ∈ es)
    (hcall : e.call = some (i, ⟨op, r⟩)) : P i op := by
  refine ((hS i).of_trace (h.trace i) (fun c hc => ?_)).1 ⟨op, r⟩ (mem_traceOf.mpr ⟨e, he, hcall⟩)
  obtain ⟨d, hd, hdcall⟩ := mem_traceOf.mp hc
  exact hanswers d hd _ hdcall

/-- What a happening left is what the next one found. -/
theorem next {later earlier : List (Happening ι Op Res σ)} {d : Happening ι Op Res σ}
    (h : History serves env S (later ++ e :: earlier) T) (hd : d ∈ earlier) :
    ∃ d' ∈ e :: earlier, d'.before = d.after := by
  induction earlier generalizing later e with
  | nil => cases hd
  | cons d₀ rest ih =>
    rcases List.mem_cons.mp hd with rfl | hd
    · obtain ⟨U, hU, hbefore⟩ := h.before
      obtain ⟨V, -, -, hafter⟩ := hU.tail
      exact ⟨e, List.mem_cons_self, hbefore.trans hafter.symm⟩
    · obtain ⟨d', hd', heq⟩ := @ih d₀ (later ++ [e]) (by simpa using h) hd
      exact ⟨d', List.mem_cons_of_mem _ hd', heq⟩

/-- A call that a program does not make as long as the answers to it satisfy `A` has been preceded
by an answer to it that does not. -/
theorem exists_before {later earlier : List (Happening ι Op Res σ)} {i : ι}
    {A : Event Op Res → Prop} {P : Op → Prop} {Q : α → Prop} {op : Op} {r : Res op}
    (h : History serves env S (later ++ e :: earlier) T) (hi : (S.procs i).Within A P Q)
    (hcall : e.call = some (i, ⟨op, r⟩)) (hop : ¬ P op) :
    ∃ d ∈ earlier, ∃ c, d.call = some (i, c) ∧ ¬ A c := by
  by_contra hnone
  simp only [not_exists, not_and, not_not] at hnone
  obtain ⟨V, hV⟩ := h.earlier
  cases hV with
  | call hU hnext _ =>
    cases hcall
    have hanswers : ∀ c ∈ traceOf i earlier, A c := by
      intro c hc
      obtain ⟨d, hd, hdcall⟩ := mem_traceOf.mp hc
      exact hnone d hd c hdcall
    have hrest := (hi.of_trace (hU.trace i) hanswers).2
    rw [hnext] at hrest
    exact hop hrest.1
  | env _ _ => cases hcall

/-- What a program has done after its first call, it has done when the first call was answered. -/
theorem exists_of_traceOf_cons {i : ι} {first c : Event Op Res} {rest : List (Event Op Res)}
    (htrace : traceOf i es = first :: rest) (hc : c ∈ rest) :
    ∃ later d earlier, es = later ++ d :: earlier ∧ d.call = some (i, c) ∧
      first ∈ traceOf i earlier := by
  induction es generalizing rest with
  | nil => cases htrace
  | cons e es ih =>
    cases hcall : e.callOf i with
    | none =>
      have hes : traceOf i es = first :: rest := by simpa [traceOf, hcall] using htrace
      obtain ⟨later, d, earlier, rfl, hd, hfirst⟩ := ih hes hc
      exact ⟨e :: later, d, earlier, rfl, hd, hfirst⟩
    | some c' =>
      have hes : traceOf i es ++ [c'] = first :: rest := by
        simpa [traceOf, hcall] using htrace
      cases htail : traceOf i es with
      | nil =>
        rw [htail] at hes
        rw [← (List.cons.inj hes).2] at hc
        cases hc
      | cons first' rest' =>
        rw [htail] at hes
        obtain ⟨rfl, rfl⟩ := List.cons.inj hes
        rcases List.mem_append.mp hc with hc | hc
        · obtain ⟨later, d, earlier, rfl, hd, hfirst⟩ := ih htail hc
          exact ⟨e :: later, d, earlier, rfl, hd, hfirst⟩
        · obtain rfl := List.mem_singleton.mp hc
          exact ⟨[], e, es, rfl, Happening.callOf_eq_some.mp hcall, by simp [htail]⟩

/-- The same as `exists_before`, for answers that are judged by the answer to the first call. -/
theorem exists_before_by_first {later earlier : List (Happening ι Op Res σ)} {i : ι} {first : Op}
    {next : Res first → Program Op Res α} {A : Res first → Event Op Res → Prop} {P : Op → Prop}
    {Q : α → Prop} {op : Op} {r : Res op}
    (h : History serves env S (later ++ e :: earlier) T) (hi : S.procs i = Program.call first next)
    (hfirst : P first) (hnext : ∀ a, (next a).Within (A a) P Q)
    (hcall : e.call = some (i, ⟨op, r⟩)) (hop : ¬ P op) :
    ∃ a between d past c, earlier = between ++ d :: past ∧ d.call = some (i, c) ∧
      ⟨first, a⟩ ∈ traceOf i past ∧ ¬ A a c := by
  obtain ⟨V, hV⟩ := h.earlier
  cases hV with
  | call hU hprocs _ =>
    cases hcall
    have htrace := hU.trace i
    rw [hi, hprocs] at htrace
    generalize hes : traceOf i earlier = t at htrace
    cases htrace with
    | nil => exact absurd hfirst hop
    | @cons _ _ rest _ a hrest =>
      have hbad : ∃ c ∈ rest, ¬ A a c := by
        by_contra hnone
        simp only [not_exists, not_and, not_not] at hnone
        exact hop ((hnext a).of_trace hrest hnone).2.1
      obtain ⟨c, hc, hA⟩ := hbad
      obtain ⟨between, d, past, hsplit, hd, hmem⟩ := exists_of_traceOf_cons hes hc
      exact ⟨a, between, d, past, c, hsplit, hd, hmem, hA⟩
  | env _ _ => cases hcall

/-- A call that a program does not make after one that satisfies `M`, as long as the answers
to it satisfy `A`, has been preceded by an answer to it that does not. -/
theorem exists_before_from {later earlier : List (Happening ι Op Res σ)} {i : ι} {M : Op → Prop}
    {A : Event Op Res → Prop} {P : Op → Prop} {op : Op} {r : Res op}
    (h : History serves env S (later ++ e :: earlier) T) (hi : (S.procs i).WithinFrom M A P)
    (hcall : e.call = some (i, ⟨op, r⟩)) (hop : ¬ P op)
    (hM : ∃ d ∈ earlier, ∃ c, d.call = some (i, c) ∧ M c.1) :
    ∃ d ∈ earlier, ∃ c, d.call = some (i, c) ∧ ¬ A c := by
  by_contra hnone
  simp only [not_exists, not_and, not_not] at hnone
  obtain ⟨V, hV⟩ := h.earlier
  cases hV with
  | call hU hnext _ =>
    cases hcall
    have hanswers : ∀ c ∈ traceOf i earlier, A c := by
      intro c hc
      obtain ⟨d, hd, hdcall⟩ := mem_traceOf.mp hc
      exact hnone d hd c hdcall
    obtain ⟨d, hd, c, hdcall, hMc⟩ := hM
    have hrest := hi.of_trace (hU.trace i) hanswers ⟨c, mem_traceOf.mpr ⟨d, hd, hdcall⟩, hMc⟩
    rw [hnext] at hrest
    exact hop hrest.1
  | env _ _ => cases hcall

/-- A call of a program heeds the calls that it has made before. -/
theorem heeds {later earlier : List (Happening ι Op Res σ)} {i : ι}
    {P : List (Event Op Res) → Op → Prop} {Q : List (Event Op Res) → α → Prop} {op : Op}
    {r : Res op} (h : History serves env S (later ++ e :: earlier) T)
    (hi : (S.procs i).Heeds P Q []) (hcall : e.call = some (i, ⟨op, r⟩)) :
    P (earlier.filterMap (Happening.callOf i)) op := by
  obtain ⟨V, hV⟩ := h.earlier
  cases hV with
  | call hU hnext _ =>
    cases hcall
    have hrest := hi.of_trace (hU.trace i)
    rw [hnext, traceOf, List.reverse_reverse, List.append_nil] at hrest
    exact hrest.1
  | env _ _ => cases hcall

/-- What a program has returned goes with all that it has done. -/
theorem heeds_done {i : ι} {P : List (Event Op Res) → Op → Prop}
    {Q : List (Event Op Res) → α → Prop} {a : α} (h : History serves env S es T)
    (hi : (S.procs i).Heeds P Q []) (hdone : T.procs i = done a) :
    Q (es.filterMap (Happening.callOf i)) a := by
  have hrest := hi.of_trace (h.trace i)
  rw [hdone, traceOf, List.reverse_reverse, List.append_nil] at hrest
  exact hrest

/-- What no happening ends holds at the end if it held before any of them. -/
theorem stays {K : σ → Prop} (h : History serves env S es T)
    (hkeep : ∀ e ∈ es, K e.before → K e.after) : ∀ d ∈ es, K d.before → K T.state := by
  induction h with
  | nil => simp
  | call _ _ _ ih =>
    obtain ⟨hhead, hpast⟩ := List.forall_mem_cons.mp hkeep
    exact List.forall_mem_cons.mpr ⟨hhead, fun d hd hK => hhead (ih hpast d hd hK)⟩
  | env _ _ ih =>
    obtain ⟨hhead, hpast⟩ := List.forall_mem_cons.mp hkeep
    exact List.forall_mem_cons.mpr ⟨hhead, fun d hd hK => hhead (ih hpast d hd hK)⟩

/-- What holds initially and is not ended by any happening holds at the end. -/
theorem holds {K : σ → Prop} (h : History serves env S es T) (hS : K S.state)
    (hkeep : ∀ e ∈ es, K e.before → K e.after) : K T.state := by
  induction h with
  | nil => exact hS
  | call _ _ _ ih =>
    obtain ⟨hhead, hpast⟩ := List.forall_mem_cons.mp hkeep
    exact hhead (ih hpast)
  | env _ _ ih =>
    obtain ⟨hhead, hpast⟩ := List.forall_mem_cons.mp hkeep
    exact hhead (ih hpast)

/-- What does not hold at first but at the end has come about in some happening. -/
theorem arises {K : σ → Prop} (h : History serves env S es T) (hS : ¬ K S.state)
    (hT : K T.state) : ∃ e ∈ es, ¬ K e.before ∧ K e.after := by
  by_contra hnone
  simp only [not_exists, not_and] at hnone
  exact h.holds (K := fun s => ¬ K s) hS hnone hT

end History

/-- From a happening that finds `K`, every happening finds it, if none ends it. -/
theorem History.found_since {serves : (op : Op) → σ → Res op → σ → Prop} {env : σ → σ → Prop}
    {S T : System ι Op Res α σ} {later earlier : List (Happening ι Op Res σ)}
    {e : Happening ι Op Res σ} {K : σ → Prop}
    (h : History serves env S (later ++ e :: earlier) T)
    (hkeep : ∀ d ∈ later ++ e :: earlier, K d.before → K d.after) (he : K e.before) :
    ∀ d ∈ later ++ [e], K d.before := by
  induction later generalizing T with
  | nil => simpa using he
  | cons d later ih =>
    obtain ⟨U, hU, hbefore, -⟩ := h.tail
    have hkeep' : ∀ d ∈ later ++ e :: earlier, K d.before → K d.after := fun d' hd' =>
      hkeep d' (List.mem_cons_of_mem _ hd')
    have hd : K d.before := hbefore ▸ hU.stays hkeep' e (by simp) he
    exact List.forall_mem_cons.mpr ⟨hd, ih hU hkeep'⟩

/-- What holds after a happening holds at the end, if no later one ends it. -/
theorem History.holds_since {serves : (op : Op) → σ → Res op → σ → Prop} {env : σ → σ → Prop}
    {S T : System ι Op Res α σ} {later earlier : List (Happening ι Op Res σ)}
    {e : Happening ι Op Res σ} {K : σ → Prop}
    (h : History serves env S (later ++ e :: earlier) T) (he : K e.after)
    (hkeep : ∀ d ∈ later, K d.before → K d.after) : K T.state := by
  induction later generalizing T with
  | nil =>
    obtain ⟨U, -, -, hafter⟩ := h.tail
    exact hafter ▸ he
  | cons d later ih =>
    obtain ⟨U, hU, hbefore, hafter⟩ := h.tail
    obtain ⟨hd, hlater⟩ := List.forall_mem_cons.mp hkeep
    exact hafter ▸ hd (hbefore ▸ ih hU hlater)

/-! ### Since when -/

/-- The stamp of the state in which `K` began to hold, if it holds after these happenings; that of
the first state, if it has held from the first on. -/
def heldSince {τ : Type} (K : σ → Bool) (stamp : σ → τ) :
    List (Happening ι Op Res σ) → Option τ
  | [] => none
  | e :: past =>
    if K e.after then
      some (if K e.before then (heldSince K stamp past).getD (stamp e.before) else stamp e.after)
    else none

section HeldSince

variable {τ : Type} {K : σ → Bool} {stamp : σ → τ} {t : τ}

omit [DecidableEq ι] in
/-- What holds at the end of a history has held since some time. -/
theorem isSome_heldSince [DecidableEq ι] {serves : (op : Op) → σ → Res op → σ → Prop}
    {env : σ → σ → Prop} {S T : System ι Op Res α σ} {es : List (Happening ι Op Res σ)}
    (h : History serves env S es T) (hes : es ≠ []) (hK : K T.state = true) :
    (heldSince K stamp es).isSome = true := by
  cases es with
  | nil => exact absurd rfl hes
  | cons e past =>
    obtain ⟨U, -, -, hafter⟩ := h.tail
    rw [heldSince, if_pos (hafter ▸ hK)]
    rfl

omit [DecidableEq ι] in
/-- What goes on holding has held since the same time. -/
theorem heldSince_append {later earlier : List (Happening ι Op Res σ)}
    (hsince : heldSince K stamp earlier = some t)
    (hkept : ∀ e ∈ later, K e.before = true ∧ K e.after = true) :
    heldSince K stamp (later ++ earlier) = some t := by
  induction later with
  | nil => exact hsince
  | cons e later ih =>
    obtain ⟨⟨hbefore, hafter⟩, hlater⟩ := List.forall_mem_cons.mp hkept
    rw [List.cons_append, heldSince, if_pos hafter, if_pos hbefore, ih hlater, Option.getD_some]

end HeldSince

/-! ### What each happening does, given what went before -/

/-- Every happening, with those before it, satisfies `P`. -/
def Throughout (P : List (Happening ι Op Res σ) → Happening ι Op Res σ → Prop) :
    List (Happening ι Op Res σ) → Prop
  | [] => True
  | e :: past => P past e ∧ Throughout P past

omit [DecidableEq ι] in
/-- The latest happening of any part of a history satisfies `P` with those before it. -/
theorem Throughout.at {P : List (Happening ι Op Res σ) → Happening ι Op Res σ → Prop}
    {later earlier : List (Happening ι Op Res σ)} {e : Happening ι Op Res σ}
    (h : Throughout P (later ++ e :: earlier)) : P earlier e := by
  induction later with
  | nil => exact h.1
  | cons _ _ ih => exact ih h.2

omit [DecidableEq ι] in
/-- What holds throughout a history holds throughout its earlier part. -/
theorem Throughout.earlier {P : List (Happening ι Op Res σ) → Happening ι Op Res σ → Prop}
    {later earlier : List (Happening ι Op Res σ)} (h : Throughout P (later ++ earlier)) :
    Throughout P earlier := by
  induction later with
  | nil => exact h
  | cons _ _ ih => exact ih h.2

omit [DecidableEq ι] in
/-- What holds of every happening with those before it holds throughout. -/
theorem Throughout.intro {P : List (Happening ι Op Res σ) → Happening ι Op Res σ → Prop}
    {es : List (Happening ι Op Res σ)}
    (h : ∀ later e earlier, es = later ++ e :: earlier → P earlier e) : Throughout P es := by
  induction es with
  | nil => trivial
  | cons e past ih =>
    exact ⟨h [] e past rfl, ih fun later e' earlier hsplit =>
      h (e :: later) e' earlier (by rw [hsplit]; rfl)⟩

omit [DecidableEq ι] in
/-- What follows for every happening of a history follows throughout. -/
theorem Throughout.imp {P Q : List (Happening ι Op Res σ) → Happening ι Op Res σ → Prop}
    {es : List (Happening ι Op Res σ)}
    (h : ∀ later e earlier, es = later ++ e :: earlier → P earlier e → Q earlier e)
    (hP : Throughout P es) : Throughout Q es :=
  .intro fun later e earlier hsplit => h later e earlier hsplit (hsplit ▸ hP).at

instance Throughout.decidable (P : List (Happening ι Op Res σ) → Happening ι Op Res σ → Prop)
    [∀ past e, Decidable (P past e)] : DecidablePred (Throughout P)
  | [] => inferInstanceAs (Decidable True)
  | e :: past =>
    have : Decidable (Throughout P past) := Throughout.decidable P past
    inferInstanceAs (Decidable (P past e ∧ Throughout P past))

/-! ### Which came first -/

/-- The happening `d` comes before `e`. -/
def Precedes (es : List (Happening ι Op Res σ)) (d e : Happening ι Op Res σ) : Prop :=
  ∃ later earlier, es = later ++ e :: earlier ∧ d ∈ earlier

section Precedes

variable {es : List (Happening ι Op Res σ)} {d e : Happening ι Op Res σ}

omit [DecidableEq ι] in
theorem Precedes.cons (h : Precedes es d e) (x : Happening ι Op Res σ) :
    Precedes (x :: es) d e := by
  obtain ⟨later, earlier, rfl, hd⟩ := h
  exact ⟨x :: later, earlier, rfl, hd⟩

omit [DecidableEq ι] in
/-- Of two happenings one comes first. -/
theorem precedes_or (hd : d ∈ es) (he : e ∈ es) : d = e ∨ Precedes es d e ∨ Precedes es e d := by
  induction es with
  | nil => cases hd
  | cons x past ih =>
    rcases List.mem_cons.mp hd with hdx | hdpast
    · rcases List.mem_cons.mp he with hex | hepast
      · exact Or.inl (hdx.trans hex.symm)
      · exact Or.inr (Or.inr ⟨[], past, by rw [hdx]; rfl, hepast⟩)
    · rcases List.mem_cons.mp he with hex | hepast
      · exact Or.inr (Or.inl ⟨[], past, by rw [hex]; rfl, hdpast⟩)
      · exact (ih hdpast hepast).imp_right (Or.imp (fun h => h.cons x) fun h => h.cons x)

end Precedes

/-! ### Looking before acting -/

/-- Some happening was a look (which may depend on what went before it), and nothing has
touched what was looked at since. -/
def LookedSince (look : List (Happening ι Op Res σ) → Happening ι Op Res σ → Prop)
    (touch : Happening ι Op Res σ → Prop) : List (Happening ι Op Res σ) → Prop
  | [] => False
  | e :: past => ¬ touch e ∧ (look past e ∨ LookedSince look touch past)

omit [DecidableEq ι] in
/-- The look and what has happened since. -/
theorem LookedSince.split {look : List (Happening ι Op Res σ) → Happening ι Op Res σ → Prop}
    {touch : Happening ι Op Res σ → Prop} {es : List (Happening ι Op Res σ)}
    (h : LookedSince look touch es) :
    ∃ later e earlier, es = later ++ e :: earlier ∧ look earlier e ∧
      ∀ d ∈ later ++ [e], ¬ touch d := by
  induction es with
  | nil => exact h.elim
  | cons e past ih =>
    obtain ⟨htouch, hlook | hearlier⟩ := h
    · exact ⟨[], e, past, rfl, hlook, by simpa using htouch⟩
    · obtain ⟨later, l, earlier, rfl, hlook, hsince⟩ := ih hearlier
      exact ⟨e :: later, l, earlier, rfl, hlook, List.forall_mem_cons.mpr ⟨htouch, hsince⟩⟩

/-- What a look establishes and only a touch can end still holds after an untouched look. -/
theorem LookedSince.holds {serves : (op : Op) → σ → Res op → σ → Prop} {env : σ → σ → Prop}
    {S T : System ι Op Res α σ} {es : List (Happening ι Op Res σ)}
    {look : List (Happening ι Op Res σ) → Happening ι Op Res σ → Prop}
    {touch : Happening ι Op Res σ → Prop} {K : σ → Prop} (h : History serves env S es T)
    (hlook : ∀ past, ∀ e ∈ es, look past e → ¬ touch e → K e.after)
    (hkeep : ∀ e ∈ es, ¬ touch e → K e.before → K e.after)
    (hsince : LookedSince look touch es) : K T.state := by
  induction h with
  | nil => exact hsince.elim
  | call _ _ _ ih =>
    obtain ⟨huntouched, hlooked | hearlier⟩ := hsince
    · exact hlook _ _ List.mem_cons_self hlooked huntouched
    · exact hkeep _ List.mem_cons_self huntouched
        (ih (fun p e he => hlook p e (List.mem_cons_of_mem _ he))
          (fun e he => hkeep e (List.mem_cons_of_mem _ he)) hearlier)
  | env _ _ ih =>
    obtain ⟨huntouched, hlooked | hearlier⟩ := hsince
    · exact hlook _ _ List.mem_cons_self hlooked huntouched
    · exact hkeep _ List.mem_cons_self huntouched
        (ih (fun p e he => hlook p e (List.mem_cons_of_mem _ he))
          (fun e he => hkeep e (List.mem_cons_of_mem _ he)) hearlier)

instance LookedSince.decidable
    (look : List (Happening ι Op Res σ) → Happening ι Op Res σ → Prop)
    (touch : Happening ι Op Res σ → Prop) [∀ past e, Decidable (look past e)]
    [DecidablePred touch] : DecidablePred (LookedSince look touch)
  | [] => inferInstanceAs (Decidable False)
  | e :: past =>
    have : Decidable (LookedSince look touch past) := LookedSince.decidable look touch past
    inferInstanceAs (Decidable (¬ touch e ∧ (look past e ∨ LookedSince look touch past)))

/-! ### Acting on what was shown -/

section Shown

variable {β : Type}

/-- What the happenings show holds of the state they find, and nothing that happens from then on
ends it. -/
def StaysTrue (shown : Happening ι Op Res σ → List β) (G : β → σ → Prop) :
    List (Happening ι Op Res σ) → Prop :=
  Throughout fun past e => (∀ v ∈ shown e, G v e.before) ∧
    ∀ d ∈ e :: past, ∀ v ∈ shown d, G v e.before → G v e.after

/-- What was shown, and has stayed true since, is true. -/
theorem StaysTrue.holds {serves : (op : Op) → σ → Res op → σ → Prop}
    {env : σ → σ → Prop} {S T : System ι Op Res α σ} {es : List (Happening ι Op Res σ)}
    {shown : Happening ι Op Res σ → List β} {G : β → σ → Prop} (h : History serves env S es T)
    (hstays : StaysTrue shown G es) : ∀ d ∈ es, ∀ v ∈ shown d, G v T.state := by
  induction es generalizing T with
  | nil => simp
  | cons e past ih =>
    obtain ⟨U, hU, hbefore, hafter⟩ := h.tail
    obtain ⟨⟨hshown, hkept⟩, hpast⟩ := hstays
    intro d hd v hv
    rw [← hafter]
    refine hkept d hd v hv ?_
    rcases List.mem_cons.mp hd with rfl | hd
    · exact hshown v hv
    · exact hbefore ▸ ih hU hpast d hd v hv

/-- What was shown, and stays true, is true around everything that happens later. -/
theorem StaysTrue.found {serves : (op : Op) → σ → Res op → σ → Prop}
    {env : σ → σ → Prop} {S T : System ι Op Res α σ} {later earlier : List (Happening ι Op Res σ)}
    {e d : Happening ι Op Res σ} {shown : Happening ι Op Res σ → List β} {G : β → σ → Prop} {v : β}
    (h : History serves env S (later ++ e :: earlier) T)
    (hstays : StaysTrue shown G (later ++ e :: earlier)) (hd : d ∈ earlier) (hv : v ∈ shown d) :
    G v e.before ∧ G v e.after := by
  obtain ⟨U, hU, hbefore⟩ := h.before
  obtain ⟨⟨-, hkept⟩, hpast⟩ := Throughout.earlier hstays
  have hfound : G v e.before := hbefore ▸ StaysTrue.holds hU hpast d hd v hv
  exact ⟨hfound, hkept d (List.mem_cons_of_mem _ hd) v hv hfound⟩

instance StaysTrue.decidable (shown : Happening ι Op Res σ → List β) (G : β → σ → Prop)
    [∀ v s, Decidable (G v s)] : DecidablePred (StaysTrue shown G) :=
  Throughout.decidable _

/-- Nothing that happens after something was shown ends it. -/
def NeverEnds (shown : Happening ι Op Res σ → List β) (G : β → σ → Prop) :
    List (Happening ι Op Res σ) → Prop :=
  Throughout fun past e => ∀ d ∈ past, ∀ v ∈ shown d, G v e.before → G v e.after

omit [DecidableEq ι] in
theorem NeverEnds.keeps {later earlier : List (Happening ι Op Res σ)} {e : Happening ι Op Res σ}
    {shown : Happening ι Op Res σ → List β} {G : β → σ → Prop} {v : β}
    (h : NeverEnds shown G (later ++ e :: earlier)) (hv : v ∈ shown e) :
    ∀ d ∈ later, G v d.before → G v d.after := by
  induction later with
  | nil => simp
  | cons d later ih =>
    exact List.forall_mem_cons.mpr ⟨h.1 e (by simp) v hv, ih h.2⟩

end Shown

/-! ### Playing a schedule -/

/-- Three programs can be given by numerals, with the zero that `Fin` takes for them. -/
instance neZero_three : @NeZero Nat Zero.ofOfNat0 3 := ⟨by decide⟩

/-- Whose turn it is: that of a program, or of the surroundings. -/
inductive Turn (ι σ : Type)
  | call (i : ι)
  | env (change : σ → σ)

/-- The next call of one program, answered by a server, or a change by the surroundings. A
program that has returned does nothing. -/
def playOne (serve : (op : Op) → σ → Res op × σ)
    (state : List (Happening ι Op Res σ) × System ι Op Res α σ) :
    Turn ι σ → List (Happening ι Op Res σ) × System ι Op Res α σ
  | .call i =>
    match state.2.procs i with
    | done _ => state
    | call op next =>
      (⟨some (i, ⟨op, (serve op state.2.state).1⟩), state.2.state,
          (serve op state.2.state).2⟩ :: state.1,
        ⟨(serve op state.2.state).2,
          Function.update state.2.procs i (next (serve op state.2.state).1)⟩)
  | .env change =>
    (⟨none, state.2.state, change state.2.state⟩ :: state.1,
      ⟨change state.2.state, state.2.procs⟩)

/-- The history and the system after the turns of a schedule. -/
def play (serve : (op : Op) → σ → Res op × σ) (S : System ι Op Res α σ)
    (schedule : List (Turn ι σ)) : List (Happening ι Op Res σ) × System ι Op Res α σ :=
  schedule.foldl (playOne serve) ([], S)

/-- What is played with a server that answers as calls are answered, and with changes that
the surroundings can make, is a history. -/
theorem History.of_play {serves : (op : Op) → σ → Res op → σ → Prop} {env : σ → σ → Prop}
    {serve : (op : Op) → σ → Res op × σ}
    (hserve : ∀ op s, serves op s (serve op s).1 (serve op s).2) (S : System ι Op Res α σ)
    (schedule : List (Turn ι σ)) (henv : ∀ change, .env change ∈ schedule → ∀ s, env s (change s)) :
    History serves env S (play serve S schedule).1 (play serve S schedule).2 := by
  suffices h : ∀ state : List (Happening ι Op Res σ) × System ι Op Res α σ,
      History serves env S state.1 state.2 →
        History serves env S (schedule.foldl (playOne serve) state).1
          (schedule.foldl (playOne serve) state).2 from h ([], S) .nil
  induction schedule with
  | nil => exact fun _ h => h
  | cons turn schedule ih =>
    intro state h
    refine ih (fun change hmem => henv change (List.mem_cons_of_mem _ hmem)) _ ?_
    cases turn with
    | call i =>
      unfold playOne
      dsimp only
      split
      · exact h
      · exact .call h ‹_› (hserve _ _)
    | env change => exact .env h (henv change List.mem_cons_self _)

end Interaction

/-!
## The first call of a program

What a program has found when it made its first call, told from a history.
-/

namespace Interaction

open Program

variable {ι Op : Type} {Res : Op → Type} {α σ : Type} [DecidableEq ι]

/-- The program makes a call, and has made none before. -/
def Begins (i : ι) (past : List (Happening ι Op Res σ)) (e : Happening ι Op Res σ) : Prop :=
  (e.callOf i).isSome = true ∧ ∀ d ∈ past, (d.callOf i).isNone = true

instance (i : ι) (past : List (Happening ι Op Res σ)) (e : Happening ι Op Res σ) :
    Decidable (Begins i past e) :=
  inferInstanceAs (Decidable ((e.callOf i).isSome = true ∧ ∀ d ∈ past, (d.callOf i).isNone = true))

/-- `P` holds of the first call of a program, if it has made one. -/
def AtFirstCall (i : ι) (P : Happening ι Op Res σ → Prop) : List (Happening ι Op Res σ) → Prop :=
  Throughout fun past e => Begins i past e → P e

instance (i : ι) (P : Happening ι Op Res σ → Prop) [DecidablePred P] :
    DecidablePred (AtFirstCall i P) :=
  Throughout.decidable _

variable {i : ι} {es between past : List (Happening ι Op Res σ)} {e d : Happening ι Op Res σ}
  {c : Event Op Res}

/-- A program that has made a call has made a first one. -/
theorem exists_begins (he : e ∈ es) (hcall : (e.callOf i).isSome = true) :
    ∃ between d past, es = between ++ d :: past ∧ Begins i past d := by
  induction es generalizing e with
  | nil => cases he
  | cons x es ih =>
    by_cases hnone : ∀ d ∈ es, (d.callOf i).isNone = true
    · rcases List.mem_cons.mp he with rfl | he
      · exact ⟨[], e, es, rfl, hcall, hnone⟩
      · simp [Option.isNone_iff_eq_none.mp (hnone e he)] at hcall
    · obtain ⟨d, hd, hdcall⟩ : ∃ d ∈ es, (d.callOf i).isSome = true := by
        simpa [Option.isSome_iff_ne_none] using hnone
      obtain ⟨between, first, past, rfl, hfirst⟩ := ih hd hdcall
      exact ⟨x :: between, first, past, rfl, hfirst⟩

/-- The first call is the earliest one. -/
theorem Begins.getLast?_calls (h : Begins i past e) (hcall : e.callOf i = some c)
    (between : List (Happening ι Op Res σ)) :
    ((between ++ e :: past).filterMap (Happening.callOf i)).getLast? = some c := by
  have hpast : past.filterMap (Happening.callOf i) = [] :=
    List.filterMap_eq_nil_iff.mpr fun d hd => Option.isNone_iff_eq_none.mp (h.2 d hd)
  rw [List.filterMap_append, List.filterMap_cons_some hcall, hpast, List.getLast?_concat]

/-- A call other than the first comes after it. -/
theorem Begins.mem_between (h : Begins i past e) (hd : d ∈ between ++ e :: past)
    (hcall : (d.callOf i).isSome = true) : d = e ∨ d ∈ between := by
  rcases List.mem_append.mp hd with hd | hd
  · exact Or.inr hd
  · rcases List.mem_cons.mp hd with rfl | hd
    · exact Or.inl rfl
    · simp [Option.isNone_iff_eq_none.mp (h.2 d hd)] at hcall

end Interaction
