import CiInfra.TaintRemover.RemoveTaint
import Mathlib.Data.List.Count

/-!
# What the removal leaves

Whatever the other controllers do, a patch takes no taint with another key: the server tests the
key at the index that it removes. The function returns after one accepted patch, though, and a
node may have several taints with one key, of different effects. So it leaves none exactly when
the accepted patch meets a node with one such taint.
-/

namespace CiInfra.TaintRemover

open Interaction Program
open Kube (Taint)

variable {key : String} {taints taints' : List Taint} {index rounds attempt : ℕ}

/-! ### One patch -/

/-- The taints with other keys are the same, in the same order. -/
def Spares (key : String) (taints taints' : List Taint) : Prop :=
  taints'.filter (fun t => t.key ≠ key) = taints.filter fun t => t.key ≠ key

/-- No taint has the key. -/
def Lacks (key : String) (taints : List Taint) : Prop := ∀ t ∈ taints, t.key ≠ key

/-- The patch takes one taint with the key out of the list, if there is one at the index. -/
theorem applyPatch_removePatch :
    applyPatch (removePatch index key) taints = some taints' ↔
      ∃ front t back, taints = front ++ t :: back ∧ front.length = index ∧ t.key = key ∧
        taints' = front ++ back := by
  constructor
  · intro h
    by_cases htest : taints[index]?.map Taint.key = some key
    · obtain ⟨t, ht, hkey⟩ := Option.map_eq_some_iff.mp htest
      obtain ⟨hlt, hget⟩ := List.getElem?_eq_some_iff.mp ht
      simp only [removePatch, applyPatch, JsonOp.apply, htest, if_true, Option.bind_some, hlt,
        Option.some.injEq] at h
      refine ⟨taints.take index, t, taints.drop (index + 1), ?_, by simp; omega, hkey, ?_⟩
      · rw [← hget, List.getElem_cons_drop, List.take_append_drop]
      · rw [← h, List.eraseIdx_eq_take_drop_succ]
    · simp only [removePatch, applyPatch, JsonOp.apply, htest, if_false, Option.bind_none] at h
      cases h
  · rintro ⟨front, t, back, rfl, rfl, hkey, rfl⟩
    have herase : (front ++ t :: back).eraseIdx front.length = front ++ back := by
      rw [List.eraseIdx_append_of_length_le le_rfl]
      simp
    simp [removePatch, applyPatch, JsonOp.apply, hkey, herase]

theorem spares_of_applyPatch (h : applyPatch (removePatch index key) taints = some taints') :
    Spares key taints taints' := by
  obtain ⟨front, t, back, rfl, -, hkey, rfl⟩ := applyPatch_removePatch.mp h
  simp [Spares, hkey]

/-- An accepted patch leaves no taint with the key if it found one. -/
theorem lacks_iff_of_applyPatch (h : applyPatch (removePatch index key) taints = some taints') :
    Lacks key taints' ↔ taints.countP (fun t => t.key = key) = 1 := by
  obtain ⟨front, t, back, rfl, -, hkey, rfl⟩ := applyPatch_removePatch.mp h
  have hcount : (front ++ t :: back).countP (fun t => t.key = key) =
      (front ++ back).countP (fun t => t.key = key) + 1 := by
    simp [List.countP_append, hkey, Nat.add_assoc]
  rw [hcount, Nat.add_eq_right, List.countP_eq_zero]
  simp [Lacks]

theorem lacks_of_findTaintIndex (h : findTaintIndex taints key = none) : Lacks key taints := by
  rw [findTaintIndex, List.findIdx?_eq_none_iff] at h
  exact fun t ht => of_decide_eq_false (h t ht)

/-! ### The calls of the function -/

/-- A patch that the server answers with 200. -/
def IsRemoval : Event Op Op.Res → Prop
  | ⟨.patchNode _ _, .http status _⟩ => status = 200
  | _ => False

/-- A request that the server answers with 200. -/
def IsSuccess : Event Op Op.Res → Prop
  | ⟨.getNode _, .http status _⟩ => status = 200
  | ⟨.patchNode _ _, .http status _⟩ => status = 200
  | _ => False

instance : DecidablePred IsRemoval := fun c => by
  unfold IsRemoval
  split <;> infer_instance

instance : DecidablePred IsSuccess := fun c => by
  unfold IsSuccess
  split <;> infer_instance

/-- The patches of the function are made for the key. -/
def PatchesFor (key : String) : Op → Prop
  | .patchNode _ patch => ∃ index, patch = removePatch index key
  | _ => True

/-- The last call of the function has shown a node without the key. -/
def ShownFree (key : String) (past : List (Event Op Op.Res)) : Prop :=
  ∃ token taints earlier, past = ⟨.getNode token, .http 200 (some taints)⟩ :: earlier ∧
    Lacks key taints ∧ ∀ c ∈ earlier, ¬ IsRemoval c

/-- The last call of the function is its only removal. -/
def JustRemoved (past : List (Event Op Op.Res)) : Prop :=
  ∃ c earlier, past = c :: earlier ∧ IsRemoval c ∧ ∀ c ∈ earlier, ¬ IsRemoval c

/-- What the calls of the function, the latest first, say of how it has ended. -/
def Ended (key : String) (past : List (Event Op Op.Res)) : Outcome → Prop
  | .returned => ShownFree key past ∨ JustRemoved past
  | .raised | .trying => ∀ c ∈ past, ¬ IsRemoval c

/-- The function has removed nothing before any call, and its patches are made for the key. -/
abbrev Steady (key : String) : List (Event Op Op.Res) → Program Op Op.Res Outcome → Prop :=
  fun past p => p.Heeds (fun past op => PatchesFor key op ∧ ∀ c ∈ past, ¬ IsRemoval c)
    (Ended key) past

theorem not_isRemoval_cons {c : Event Op Op.Res} {past : List (Event Op Op.Res)}
    (hc : ¬ IsRemoval c) (hpast : ∀ c ∈ past, ¬ IsRemoval c) : ∀ d ∈ c :: past, ¬ IsRemoval d :=
  List.forall_mem_cons.mpr ⟨hc, hpast⟩

theorem steady_retry {again : ℕ → Program Op Op.Res Outcome} {past : List (Event Op Op.Res)}
    (hagain : ∀ attempt past, (∀ c ∈ past, ¬ IsRemoval c) → Steady key past (again attempt))
    (hpast : ∀ c ∈ past, ¬ IsRemoval c) (e : Retry) : Steady key past (retry again attempt e) := by
  cases e with
  | reread => exact hagain 0 past hpast
  | backOff =>
    exact ⟨⟨trivial, hpast⟩, fun r => hagain _ _ (not_isRemoval_cons (fun h => h) hpast)⟩
  | raise => exact hpast

/-- An answer after which the function goes on is not that of a removal. -/
theorem not_isRemoval_of_afterPatch {token : String} {patch : List JsonOp}
    {answer : Response Unit} {e : Retry} (h : afterPatch answer = .error e) :
    ¬ IsRemoval ⟨.patchNode token patch, answer⟩ := by
  cases answer with
  | http status body =>
    rintro rfl
    cases h
  | networkError => exact fun h => h
  | otherError => exact fun h => h

theorem isRemoval_of_afterPatch {token : String} {patch : List JsonOp} {answer : Response Unit}
    (h : afterPatch answer = .ok ()) : IsRemoval ⟨.patchNode token patch, answer⟩ := by
  cases answer with
  | http status body =>
    by_contra hstatus
    simp only [afterPatch, if_neg (show ¬ status = 200 from hstatus)] at h
    split_ifs at h
  | networkError => cases h
  | otherError => cases h

theorem readNode_eq_ok {answer : Response (Option (List Taint))}
    (h : readNode answer = .ok taints) :
    answer = .http 200 (some taints) := by
  cases answer with
  | http status body =>
    simp only [readNode] at h
    split_ifs at h with hstatus
    subst hstatus
    cases body with
    | none => cases h
    | some read =>
      cases h
      rfl
  | networkError => cases h
  | otherError => cases h

theorem steady_removeRound {again : ℕ → Program Op Op.Res Outcome}
    {past : List (Event Op Op.Res)}
    (hagain : ∀ attempt past, (∀ c ∈ past, ¬ IsRemoval c) → Steady key past (again attempt))
    (hpast : ∀ c ∈ past, ¬ IsRemoval c) : Steady key past (removeRound key again attempt) := by
  refine ⟨⟨trivial, hpast⟩, fun token => ?_⟩
  have htoken : ∀ c ∈ (⟨Op.readToken, token⟩ : Event Op Op.Res) :: past, ¬ IsRemoval c :=
    not_isRemoval_cons (fun h => h) hpast
  cases token with
  | none => exact htoken
  | some token =>
    refine ⟨⟨trivial, htoken⟩, fun answer => ?_⟩
    have hnode := not_isRemoval_cons (c := ⟨.getNode token, answer⟩) (fun h => h) htoken
    dsimp only
    cases hread : readNode answer with
    | error e => exact steady_retry hagain hnode e
    | ok taints =>
      dsimp only
      cases hindex : findTaintIndex taints key with
      | none =>
        obtain rfl := readNode_eq_ok hread
        exact Or.inl ⟨token, taints, _, rfl, lacks_of_findTaintIndex hindex, htoken⟩
      | some index =>
        refine ⟨⟨⟨index, rfl⟩, hnode⟩, fun answer => ?_⟩
        dsimp only
        cases hafter : afterPatch answer with
        | ok done => exact Or.inr ⟨_, _, rfl, isRemoval_of_afterPatch hafter, hnode⟩
        | error e =>
          exact steady_retry hagain
            (not_isRemoval_cons (not_isRemoval_of_afterPatch hafter) hnode) e

theorem steady_removeTaintForever {past : List (Event Op Op.Res)}
    (hpast : ∀ c ∈ past, ¬ IsRemoval c) :
    Steady key past (removeTaintForever key rounds attempt) := by
  induction rounds generalizing attempt past with
  | zero => exact hpast
  | succ rounds ih => exact steady_removeRound (fun _ _ h => ih h) hpast

/-! ### Runs -/

/-- What happens to a node while the function runs, the latest first. -/
abbrev Run := List (Happening Unit Op Op.Res (List Taint))

/-- The happening is a request that is answered with 200. -/
def Succeeded (e : Happening Unit Op Op.Res (List Taint)) : Bool :=
  (e.callOf ()).any fun c => IsSuccess c

/-- The happening is a patch that is answered with 200. -/
def Removes (e : Happening Unit Op Op.Res (List Taint)) : Bool :=
  (e.callOf ()).any fun c => IsRemoval c

/-- No call changes the taints with other keys, and if the function has returned, its last
successful request has left the node without the key. -/
def RemovalExact (key : String) (es : Run) (p : Program Op Op.Res Outcome) : Prop :=
  (∀ e ∈ es, e.call.isSome = true → Spares key e.before e.after) ∧
    (p = done .returned → ∃ e ∈ es.find? Succeeded, Lacks key e.after)

/-- Every accepted patch meets a node with exactly one taint of the key. -/
def MeetsOne (key : String) (es : Run) : Prop :=
  ∀ e ∈ es, Removes e = true → e.before.countP (fun t => t.key = key) = 1

instance (es : Run) : Decidable (MeetsOne key es) :=
  inferInstanceAs (Decidable (∀ e ∈ es, _))

variable {es : Run} {node : List Taint} {T : System Unit Op Op.Res Outcome (List Taint)}

theorem patchesFor_retry {again : ℕ → Program Op Op.Res Outcome}
    (hagain : ∀ attempt, (again attempt).OnlyCalls (PatchesFor key)) (e : Retry) :
    (retry again attempt e).OnlyCalls (PatchesFor key) := by
  cases e with
  | reread => exact hagain 0
  | backOff => exact ⟨trivial, fun _ => hagain _⟩
  | raise => trivial

theorem patchesFor_removeTaintForever :
    (removeTaintForever key rounds attempt).OnlyCalls (PatchesFor key) := by
  induction rounds generalizing attempt with
  | zero => trivial
  | succ rounds ih =>
    refine ⟨trivial, fun token => ?_⟩
    cases token with
    | none => trivial
    | some token =>
      refine ⟨trivial, fun answer => ?_⟩
      dsimp only
      cases readNode answer with
      | error e => exact patchesFor_retry (fun _ => ih) e
      | ok taints =>
        dsimp only
        cases findTaintIndex taints key with
        | none => trivial
        | some index =>
          refine ⟨⟨index, rfl⟩, fun answer => ?_⟩
          dsimp only
          cases afterPatch answer with
          | ok _ => trivial
          | error e => exact patchesFor_retry (fun _ => ih) e

/-- However a call is answered, the taints with other keys are as they were. -/
theorem spares_of_serves {op : Op} {r : op.Res} (hop : PatchesFor key op)
    (h : serves op taints r taints') : Spares key taints taints' := by
  cases op with
  | readToken => exact congrArg _ h
  | getNode token => exact congrArg _ h.1
  | patchNode token patch =>
    obtain ⟨index, rfl⟩ := hop
    obtain ⟨rfl | hpatch, -⟩ := h
    · rfl
    · exact spares_of_applyPatch hpatch
  | sleep seconds => exact congrArg _ h

/-- A patch that is answered with 200 leaves no taint with the key if it found one. -/
theorem lacks_iff_of_removal {op : Op} {r : op.Res} (hop : PatchesFor key op)
    (hremoval : IsRemoval ⟨op, r⟩) (h : serves op taints r taints') :
    Lacks key taints' ↔ taints.countP (fun t => t.key = key) = 1 := by
  cases op with
  | patchNode token patch =>
    obtain ⟨index, rfl⟩ := hop
    cases r with
    | http status body =>
      obtain rfl : status = 200 := hremoval
      exact lacks_iff_of_applyPatch (h.2 body rfl)
    | networkError => exact hremoval.elim
    | otherError => exact hremoval.elim
  | readToken | getNode | sleep => exact hremoval.elim

theorem isSuccess_of_isRemoval {c : Event Op Op.Res} (h : IsRemoval c) : IsSuccess c := by
  obtain ⟨op, r⟩ := c
  cases op with
  | patchNode token patch =>
    cases r with
    | http status body => exact h
    | networkError => exact h
    | otherError => exact h
  | readToken | getNode | sleep => exact h.elim

theorem removes_iff {e : Happening Unit Op Op.Res (List Taint)} :
    Removes e = true ↔ ∃ c, e.callOf () = some c ∧ IsRemoval c := by
  simp [Removes, Option.any_eq_true]

/-- Without an accepted patch there is nothing to ask of one. -/
theorem meetsOne_of_none (h : ∀ c ∈ es.filterMap (Happening.callOf ()), ¬ IsRemoval c) :
    MeetsOne key es := by
  intro e he hremoves
  obtain ⟨c, hc, hremoval⟩ := removes_iff.mp hremoves
  exact (h c (List.mem_filterMap.mpr ⟨e, he, hc⟩) hremoval).elim

/-- The latest call of the function, if it is a success, is the last success. -/
theorem find_succeeded {later earlier : Run} {e : Happening Unit Op Op.Res (List Taint)}
    {c : Event Op Op.Res} (hlater : ∀ d ∈ later, d.callOf () = none) (he : e.callOf () = some c)
    (hc : IsSuccess c) : (later ++ e :: earlier).find? Succeeded = some e := by
  have hnone : later.find? Succeeded = none := by
    rw [List.find?_eq_none]
    intro d hd
    simp [Succeeded, hlater d hd]
  have hsucceeded : Succeeded e = true := by simp [Succeeded, he, hc]
  rw [List.find?_append, hnone, Option.none_or, List.find?_cons_of_pos hsucceeded]

/-- Where the last call has shown that there is no taint with the key, there is none then. -/
theorem exact_of_shownFree
    (h : History serves env ⟨node, fun _ => removeTaintForever key rounds attempt⟩ es T)
    (hshown : ShownFree key (es.filterMap (Happening.callOf ()))) :
    (∃ e ∈ es.find? Succeeded, Lacks key e.after) ∧ MeetsOne key es := by
  obtain ⟨token, taints, past, hpast, hlacks, hremoved⟩ := hshown
  refine ⟨?_, meetsOne_of_none (hpast ▸ not_isRemoval_cons (fun h => h) hremoved)⟩
  obtain ⟨later, e, earlier, rfl, hlater, he, -⟩ := List.filterMap_eq_cons_iff.mp hpast
  obtain ⟨hafter, hread⟩ := h.served (by simp) (Happening.callOf_eq_some.mp he)
  refine ⟨e, find_succeeded hlater he rfl, ?_⟩
  rw [hafter, ← hread taints rfl]
  exact hlacks

/-- Where the last call is the only removal, it decides whether a taint with the key is left. -/
theorem exact_of_justRemoved
    (h : History serves env ⟨node, fun _ => removeTaintForever key rounds attempt⟩ es T)
    (hremoved : JustRemoved (es.filterMap (Happening.callOf ()))) :
    (∃ e ∈ es.find? Succeeded, Lacks key e.after) ↔ MeetsOne key es := by
  obtain ⟨c, past, hpast, hc, honly⟩ := hremoved
  obtain ⟨later, e, earlier, rfl, hlater, he, hearlier⟩ := List.filterMap_eq_cons_iff.mp hpast
  have hcall := Happening.callOf_eq_some.mp he
  have hmem : e ∈ later ++ e :: earlier := by simp
  have hop : PatchesFor key c.1 := h.calls (fun _ => patchesFor_removeTaintForever) hmem hcall
  have hdecides := lacks_iff_of_removal hop hc (h.served hmem hcall)
  have hfind : (later ++ e :: earlier).find? Succeeded = some e :=
    find_succeeded hlater he (isSuccess_of_isRemoval hc)
  constructor
  · rintro ⟨d, hd, hlacks⟩
    obtain rfl : e = d := Option.some.inj (hfind.symm.trans hd)
    intro d hd hremoves
    obtain ⟨c', hc', hremoval⟩ := removes_iff.mp hremoves
    rcases List.mem_append.mp hd with hd | hd
    · rw [hlater d hd] at hc'
      cases hc'
    · rcases List.mem_cons.mp hd with rfl | hd
      · exact hdecides.mp hlacks
      · exact (honly c' (hearlier ▸ List.mem_filterMap.mpr ⟨d, hd, hc'⟩) hremoval).elim
  · intro hmeets
    exact ⟨e, hfind, hdecides.mpr (hmeets e hmem (removes_iff.mpr ⟨c, he, hc⟩))⟩

/-- The removal is exact, in any run and whatever the other controllers do, just when every
accepted patch meets a node with exactly one taint of the key. -/
theorem removeTaintForever_exact
    (h : History serves env ⟨node, fun _ => removeTaintForever key rounds 0⟩ es T) :
    RemovalExact key es (T.procs ()) ↔ MeetsOne key es := by
  have hspares : ∀ e ∈ es, e.call.isSome = true → Spares key e.before e.after := by
    intro e he hsome
    obtain ⟨⟨⟨⟩, op, r⟩, hcall⟩ := Option.isSome_iff_exists.mp hsome
    exact spares_of_serves (h.calls (fun _ => patchesFor_removeTaintForever) he hcall)
      (h.served he hcall)
  have hstart : Steady key [] (removeTaintForever key rounds 0) :=
    steady_removeTaintForever (by simp)
  have hsteady : Steady key _ (T.procs ()) := hstart.of_trace (h.trace ())
  rw [traceOf, List.reverse_reverse, List.append_nil] at hsteady
  cases hproc : T.procs () with
  | call op next =>
    rw [hproc] at hsteady
    exact iff_of_true ⟨hspares, fun hdone => by cases hdone⟩ (meetsOne_of_none hsteady.1.2)
  | done outcome =>
    rw [hproc] at hsteady
    cases outcome with
    | raised => exact iff_of_true ⟨hspares, fun hdone => by cases hdone⟩ (meetsOne_of_none hsteady)
    | trying => exact iff_of_true ⟨hspares, fun hdone => by cases hdone⟩ (meetsOne_of_none hsteady)
    | returned =>
      obtain hshown | hremoved := hsteady
      · obtain ⟨hlacks, hmeets⟩ := exact_of_shownFree h hshown
        exact iff_of_true ⟨hspares, fun _ => hlacks⟩ hmeets
      · rw [← exact_of_justRemoved h hremoved]
        exact ⟨fun hexact => hexact.2 rfl, fun hlacks => ⟨hspares, fun _ => hlacks⟩⟩

/-! ### Two schedules -/

/-- A server that answers every call, and gives a token. -/
def serve : (op : Op) → List Taint → op.Res × List Taint
  | .readToken, taints => (some "token", taints)
  | .getNode _, taints => (.http 200 (some taints), taints)
  | .patchNode _ patch, taints =>
    match applyPatch patch taints with
    | some taints' => (.http 200 (), taints')
    | none => (.http 422 (), taints)
  | .sleep _, taints => ((), taints)

theorem serves_serve (op : Op) (taints : List Taint) :
    serves op taints (serve op taints).1 (serve op taints).2 := by
  cases op with
  | readToken => rfl
  | getNode token => exact ⟨rfl, fun read hread => by cases hread; rfl⟩
  | patchNode token patch =>
    simp only [serve]
    cases hpatch : applyPatch patch taints with
    | some taints' => exact ⟨.inr hpatch, fun _ _ => hpatch⟩
    | none => exact ⟨.inl rfl, fun _ hbody => by cases hbody⟩
  | sleep seconds => rfl

/-- The startup taint of a node, with an effect. -/
def startupTaint (effect : String) : Taint := ⟨"node.osdc.io/not-ready", "true", effect, none⟩

/-- A taint that another controller puts first. -/
def cordonTaint : Taint := ⟨"node.kubernetes.io/unschedulable", "", "NoSchedule", none⟩

/-- A run of the function on a node with these taints. -/
def playOn (taints : List Taint) (schedule : List (Turn Unit (List Taint))) :
    Run × System Unit Op Op.Res Outcome (List Taint) :=
  play serve ⟨taints, fun _ => removeTaintForever "node.osdc.io/not-ready" 2 0⟩ schedule

theorem history_playOn (taints : List Taint) (schedule : List (Turn Unit (List Taint))) :
    History serves env ⟨taints, fun _ => removeTaintForever "node.osdc.io/not-ready" 2 0⟩
      (playOn taints schedule).1 (playOn taints schedule).2 :=
  .of_play serves_serve _ schedule fun _ _ _ => trivial

/-- Another controller shifts the taints after the read, so that the patch is refused first. -/
def shifted : Run × System Unit Op Op.Res Outcome (List Taint) :=
  playOn [startupTaint "NoSchedule"]
    [.call (), .call (), .env fun taints => cordonTaint :: taints, .call (), .call (), .call (),
      .call ()]

theorem removeTaintForever_exact_shifted :
    shifted.1.length = 7 ∧
      RemovalExact "node.osdc.io/not-ready" shifted.1 (shifted.2.procs ()) :=
  ⟨by decide, (removeTaintForever_exact (history_playOn _ _)).mpr (by decide)⟩

/-- The node has the taint with two effects. -/
def twoEffects : Run × System Unit Op Op.Res Outcome (List Taint) :=
  playOn [startupTaint "NoSchedule", startupTaint "NoExecute"] [.call (), .call (), .call ()]

/-- The function returns with one of the two taints left. -/
theorem not_removeTaintForever_exact :
    ¬ ∀ (key : String) (rounds : ℕ) (node : List Taint) (es : Run)
        (T : System Unit Op Op.Res Outcome (List Taint)),
      History serves env ⟨node, fun _ => removeTaintForever key rounds 0⟩ es T →
        RemovalExact key es (T.procs ()) := by
  intro hall
  obtain ⟨e, he, hlacks⟩ := (hall _ _ _ _ _ (history_playOn _ _) : RemovalExact _ twoEffects.1
    (twoEffects.2.procs ())).2 rfl
  have hafter : e.after = [startupTaint "NoExecute"] := by
    cases he
    rfl
  exact hlacks (startupTaint "NoExecute") (by rw [hafter]; exact List.mem_cons_self) rfl

end CiInfra.TaintRemover
