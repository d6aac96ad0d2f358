import CiInfra.TaintRemover.Exactness

/-!
# Giving up

The remover is to give up only on an answer that stays the same however often it asks: a 4xx other
than 401, 409, 422 and 429. The two calls of a round judge their answers by different rules, though.
That of the read has no exception but 429 and takes everything but 200 and 5xx for permanent; that
of the patch has all but 429.
-/

namespace CiInfra.TaintRemover

open Interaction Program
open Kube (Taint)

/-! ### Answers -/

/-- The call ends with an HTTP answer or an error of the transport: there is a token, and what is
read of a node is one. -/
def IsHttpOutcome : Event Op Op.Res → Prop
  | ⟨.readToken, token⟩ => token ≠ none
  | ⟨.getNode _, answer⟩ => answer ≠ .otherError ∧ answer ≠ .http 200 none
  | ⟨.patchNode _ _, answer⟩ => answer ≠ .otherError
  | ⟨.sleep _, _⟩ => True

/-- The 4xx answers on which giving up is right. -/
def PermanentStatus (status : ℕ) : Prop :=
  400 ≤ status ∧ status < 500 ∧ status ∉ [401, 409, 422, 429]

/-- A request is answered with a permanent error. -/
def IsPermanent : Event Op Op.Res → Prop
  | ⟨.getNode _, .http status _⟩ => PermanentStatus status
  | ⟨.patchNode _ _, .http status _⟩ => PermanentStatus status
  | _ => False

/-- A request is answered with an error that is taken for a permanent one: 401, 409, 422 and
whatever is neither 200 nor 4xx nor 5xx for a read, 429 for a patch. -/
def Misjudged : Event Op Op.Res → Prop
  | ⟨.getNode _, .http status _⟩ =>
    status ≠ 200 ∧ (status < 400 ∨ 600 ≤ status ∨ status ∈ [401, 409, 422])
  | ⟨.patchNode _ _, .http status _⟩ => status = 429
  | _ => False

/-- An answer shows that the taint is absent, or that it has been removed. -/
def Settles (key : String) : Event Op Op.Res → Prop
  | ⟨.getNode _, .http status (some taints)⟩ => status = 200 ∧ Lacks key taints
  | ⟨.patchNode _ _, .http status _⟩ => status = 200
  | _ => False

/-- The function raises at the answer. -/
def Raises : Event Op Op.Res → Prop
  | ⟨.readToken, token⟩ => token = none
  | ⟨.getNode _, answer⟩ => readNode answer = .error .raise
  | ⟨.patchNode _ _, answer⟩ => afterPatch answer = .error .raise
  | ⟨.sleep _, _⟩ => False

theorem readNode_eq_raise {status : ℕ} {body : Option (List Taint)} (h : status ≠ 200) :
    readNode (.http status body) = .error .raise ↔
      ¬ ((500 ≤ status ∧ status < 600) ∨ status = 429) := by
  simp only [readNode, if_neg h]
  split_ifs with htransient <;> simp [htransient]

theorem afterPatch_eq_raise {status : ℕ} {body : Unit} :
    afterPatch (.http status body) = .error .raise ↔
      400 ≤ status ∧ status < 500 ∧ status ∉ [401, 409, 422] := by
  simp only [afterPatch, List.mem_cons, List.not_mem_nil, or_false]
  split_ifs <;> simp <;> omega

/-- It raises at the permanent errors and at those that are taken for them. -/
theorem raises_iff {c : Event Op Op.Res} (hc : IsHttpOutcome c) :
    Raises c ↔ IsPermanent c ∨ Misjudged c := by
  have hneither : ∀ {p q : Prop}, ¬ p → ¬ q → ¬ (p ∨ q) := fun hp hq h => h.elim hp hq
  obtain ⟨op, r⟩ := c
  cases op with
  | readToken => exact iff_of_false hc (hneither (fun h => h) fun h => h)
  | sleep seconds => exact iff_of_false (fun h => h) (hneither (fun h => h) fun h => h)
  | getNode token =>
    cases r with
    | networkError => exact iff_of_false (fun h => by cases h) (hneither (fun h => h) fun h => h)
    | otherError => exact absurd rfl hc.1
    | http status body =>
      by_cases hstatus : status = 200
      · subst hstatus
        cases body with
        | none => exact absurd rfl hc.2
        | some taints =>
          refine iff_of_false (fun h => by cases h) (hneither ?_ fun h => h.1 rfl)
          rintro ⟨h, -⟩
          omega
      · refine (readNode_eq_raise hstatus).trans ?_
        simp only [IsPermanent, PermanentStatus, Misjudged, List.mem_cons, List.not_mem_nil,
          or_false]
        omega
  | patchNode token patch =>
    cases r with
    | networkError => exact iff_of_false (fun h => by cases h) (hneither (fun h => h) fun h => h)
    | otherError => exact absurd rfl hc
    | http status body =>
      refine afterPatch_eq_raise.trans ?_
      simp only [IsPermanent, PermanentStatus, Misjudged, List.mem_cons, List.not_mem_nil,
        or_false]
      omega

theorem not_isPermanent_of_misjudged {c : Event Op Op.Res} (h : Misjudged c) :
    ¬ IsPermanent c := by
  obtain ⟨op, r⟩ := c
  cases op with
  | readToken | sleep => exact fun h => h
  | getNode token =>
    cases r with
    | networkError | otherError => exact fun h => h
    | http status body =>
      simp only [Misjudged, IsPermanent, PermanentStatus, List.mem_cons, List.not_mem_nil,
        or_false] at h ⊢
      omega
  | patchNode token patch =>
    cases r with
    | networkError | otherError => exact fun h => h
    | http status body =>
      simp only [Misjudged, IsPermanent, PermanentStatus, List.mem_cons, List.not_mem_nil,
        or_false] at h ⊢
      omega

/-! ### The calls of the function -/

variable {key : String} {rounds attempt count : ℕ} {past : List (Event Op Op.Res)}

/-- How the function has ended, by its calls so far, the latest first. It stops trying only when it
is cut off after a number of calls. -/
def EndedBy (key : String) (count : ℕ) (past : List (Event Op Op.Res)) : Outcome → Prop
  | .raised => ∃ c earlier, past = c :: earlier ∧ Raises c ∧ ∀ d ∈ earlier, ¬ Raises d
  | .returned => (∃ c earlier, past = c :: earlier ∧ Settles key c) ∧ ∀ c ∈ past, ¬ Raises c
  | .trying => count ≤ past.length ∧ ∀ c ∈ past, ¬ Raises c

/-- The function has raised before no call. -/
abbrev Persists (key : String) (count : ℕ) :
    List (Event Op Op.Res) → Program Op Op.Res Outcome → Prop :=
  fun past p => p.Heeds (fun past _ => ∀ c ∈ past, ¬ Raises c) (EndedBy key count) past

theorem settles_of_isRemoval {c : Event Op Op.Res} (h : IsRemoval c) : Settles key c := by
  obtain ⟨op, r⟩ := c
  cases op with
  | patchNode token patch =>
    cases r with
    | http status body => exact h
    | networkError | otherError => exact h.elim
  | readToken | getNode | sleep => exact h.elim

theorem not_raises_cons {c : Event Op Op.Res} (hc : ¬ Raises c) (hpast : ∀ c ∈ past, ¬ Raises c) :
    ∀ d ∈ c :: past, ¬ Raises d := List.forall_mem_cons.mpr ⟨hc, hpast⟩

/-- After a call whose answer leads to a retry the function goes on, unless it raises. -/
theorem persists_retry {again : ℕ → Program Op Op.Res Outcome} {least : ℕ} {c : Event Op Op.Res}
    (hagain : ∀ attempt past, (∀ c ∈ past, ¬ Raises c) → least < past.length →
      Persists key count past (again attempt))
    (hleast : least ≤ past.length) (hpast : ∀ c ∈ past, ¬ Raises c) {e : Retry}
    (hc : Raises c ↔ e = .raise) : Persists key count (c :: past) (retry again attempt e) := by
  cases e with
  | reread =>
    have hpast' := not_raises_cons (fun h => by cases hc.mp h) hpast
    exact hagain 0 _ hpast' (Nat.lt_succ_of_le hleast)
  | backOff =>
    have hpast' := not_raises_cons (fun h => by cases hc.mp h) hpast
    refine ⟨hpast', fun r => hagain _ _ (not_raises_cons (fun h => h) hpast') ?_⟩
    exact Nat.lt_succ_of_le (hleast.trans (Nat.le_succ _))
  | raise => exact ⟨c, past, rfl, hc.mpr rfl, hpast⟩

/-- A round raises at its last call or at none, and makes at least one call. -/
theorem persists_removeRound {again : ℕ → Program Op Op.Res Outcome}
    (hagain : ∀ attempt past', (∀ c ∈ past', ¬ Raises c) → past.length < past'.length →
      Persists key count past' (again attempt))
    (hpast : ∀ c ∈ past, ¬ Raises c) : Persists key count past (removeRound key again attempt) := by
  refine ⟨hpast, fun token => ?_⟩
  cases token with
  | none => exact ⟨_, _, rfl, rfl, hpast⟩
  | some token =>
    have htoken : ∀ c ∈ (⟨Op.readToken, some token⟩ : Event Op Op.Res) :: past, ¬ Raises c :=
      not_raises_cons (fun h => by cases h) hpast
    refine ⟨htoken, fun answer => ?_⟩
    have hraises : Raises ⟨.getNode token, answer⟩ ↔ readNode answer = .error .raise := Iff.rfl
    dsimp only
    cases hread : readNode answer with
    | error e => exact persists_retry hagain (Nat.le_succ _) htoken (by simp [hraises, hread])
    | ok taints =>
      have hnode := not_raises_cons (c := ⟨.getNode token, answer⟩) (by simp [hraises, hread])
        htoken
      dsimp only
      cases hindex : findTaintIndex taints key with
      | none =>
        obtain rfl := readNode_eq_ok hread
        exact ⟨⟨_, _, rfl, rfl, lacks_of_findTaintIndex hindex⟩, hnode⟩
      | some index =>
        refine ⟨hnode, fun answer' => ?_⟩
        have hraises' : Raises ⟨.patchNode token (removePatch index key), answer'⟩ ↔
            afterPatch answer' = .error .raise := Iff.rfl
        dsimp only
        cases hafter : afterPatch answer' with
        | ok done =>
          have hremoval := @isRemoval_of_afterPatch token (removePatch index key) _ hafter
          exact ⟨⟨_, _, rfl, settles_of_isRemoval hremoval⟩,
            not_raises_cons (by simp [hraises', hafter]) hnode⟩
        | error e =>
          exact persists_retry hagain ((Nat.le_succ _).trans (Nat.le_succ _)) hnode
            (by simp [hraises', hafter])

theorem persists_removeTaintForever (hpast : ∀ c ∈ past, ¬ Raises c)
    (hcount : count ≤ past.length + rounds) :
    Persists key count past (removeTaintForever key rounds attempt) := by
  induction rounds generalizing attempt past with
  | zero => exact ⟨hcount, hpast⟩
  | succ rounds ih =>
    exact persists_removeRound (fun _ _ hpast' hlt => ih hpast' (by omega)) hpast

/-- The function raises only after a permanent error, returns only after an answer that settles the
matter, and otherwise goes on for as many rounds as it is given. -/
structure GivesUpRightly (key : String) (rounds : ℕ) (t : List (Event Op Op.Res))
    (q : Program Op Op.Res Outcome) : Prop where
  raised : q = done .raised → ∃ c ∈ t.getLast?, IsPermanent c
  returned : q = done .returned → ∃ c ∈ t.getLast?, Settles key c
  trying : q = done .trying → rounds ≤ t.length

/-- A run in which the node cannot be read. -/
def refusedRead (status : ℕ) : List (Event Op Op.Res) :=
  [⟨.readToken, some "token"⟩, ⟨.getNode "token", .http status none⟩]

theorem trace_refusedRead {status : ℕ}
    (h : readNode (.http status none) = .error .raise) :
    Trace (removeTaintForever key 1 0) (refusedRead status) (done .raised) := by
  rw [removeTaintForever, removeRound]
  refine @Trace.cons Op Op.Res Outcome .readToken _ _ _ (some "token") ?_
  refine @Trace.cons Op Op.Res Outcome (.getNode "token") _ _ _ (.http status none) ?_
  simp only [h]
  exact .nil _

end CiInfra.TaintRemover
