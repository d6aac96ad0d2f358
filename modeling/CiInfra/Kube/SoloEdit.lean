import CiInfra.Kube.OptimisticEdit

/-!
# Edits that have the server to themselves

Without other writers an edit has an outcome that depends only on its node and on the
failures decided for the node's calls, so edits of different nodes do not interfere.
-/

namespace CiInfra.Kube

open Interaction Interaction.Program VersionedStore

/-- What came of an edit: its result, the patch that was accepted if one was, and the
outcomes left for calls that name the node. -/
structure Outcome (α : Type) where
  result : Except Failure α
  accepted : Option Patch
  faults : List (Option Failure)

/-- The answer to a patch of a node that is there, and the outcomes left. -/
def patchAnswer (patch : Patch) (node : Node) (faults : List (Option Failure)) :
    Except Failure Unit × List (Option Failure) :=
  match nextFault faults with
  | (some failure, faults) => (.error failure, faults)
  | (none, faults) =>
    match patch.apply node with
    | .ok _ => (.ok (), faults)
    | .error failure => (.error failure, faults)

namespace Edit

variable {α : Type}

/-- The outcome of an edit that has the server to itself: it depends on the node and on the
outcomes decided for the node's calls, and on nothing else. -/
def outcome (e : Edit α) (node? : Option Node) : ℕ → List (Option Failure) → Outcome α
  | 0, faults => ⟨.ok e.exhausted, none, faults⟩
  | attempts + 1, faults =>
    match nextFault faults with
    | (some failure, faults) => ⟨e.onGetFailure failure, none, faults⟩
    | (none, faults) =>
      match node? with
      | none => ⟨e.onGetFailure (.api 404), none, faults⟩
      | some node =>
        match e.inspect node with
        | .finish a => ⟨.ok a, none, faults⟩
        | .wait => outcome e node? attempts faults
        | .send patch =>
          match patchAnswer patch node faults with
          | (.ok (), faults) => ⟨.ok e.completed, some patch, faults⟩
          | (.error failure, faults) =>
            match e.onPatchFailure attempts failure with
            | none => outcome e node? attempts faults
            | some result => ⟨result, none, faults⟩

end Edit

/-- The cluster after an edit of one node. -/
def Cluster.after {α : Type} (c : Cluster) (name : String) (o : Outcome α) : Cluster :=
  match o.accepted with
  | none => c.withFaults name o.faults
  | some patch =>
    { c.withFaults name o.faults with
      nodes := c.nodes.modify name patch.applyTo patch.name_applyTo }

theorem Cluster.withFaults_withFaults (c : Cluster) (name : String)
    (faults faults' : List (Option Failure)) :
    (c.withFaults name faults).withFaults name faults' = c.withFaults name faults' := by
  simp only [Cluster.withFaults, Function.update_idem]

theorem Cluster.withFaults_self (c : Cluster) (name : String) :
    c.withFaults name (c.faults name) = c := by
  simp only [Cluster.withFaults, Function.update_eq_self]

theorem Cluster.after_withFaults {α : Type} (c : Cluster) (name : String)
    (faults : List (Option Failure)) (o : Outcome α) :
    (c.withFaults name faults).after name o = c.after name o := by
  unfold Cluster.after
  split
  · exact c.withFaults_withFaults ..
  · rw [c.withFaults_withFaults]
    rfl

theorem serve_patchNode {c : Cluster} {name : String} {n : Node}
    (h : c.nodes.find? name = some n) (patch : Patch) :
    serve (.patchNode name patch) c =
      match patchAnswer patch n (c.faults name) with
      | (.ok (), faults) => (.ok (), c.after name (⟨.ok (), some patch, faults⟩ : Outcome Unit))
      | (.error failure, faults) => (.error failure, c.withFaults name faults) := by
  simp only [serve, Cluster.takeFault, patchAnswer]
  rcases nextFault (c.faults name) with ⟨_ | failure, faults⟩
  · simp only [Cluster.patch, Cluster.withFaults, h]
    cases patch.apply n <;> rfl
  · rfl

/-- A run of an edit has its outcome. -/
theorem Edit.run_attempt {α : Type} (e : Edit α) (attempts : ℕ) (c : Cluster) :
    (e.attempt attempts).run serve c =
      ((e.outcome (c.nodes.find? e.name) attempts (c.faults e.name)).result,
        c.after e.name (e.outcome (c.nodes.find? e.name) attempts (c.faults e.name))) := by
  induction attempts generalizing c with
  | zero => simp only [attempt, run_done, outcome, Cluster.after, c.withFaults_self]
  | succ attempts ih =>
    have hretry : ∀ faults, (e.attempt attempts).run serve (c.withFaults e.name faults) =
        ((e.outcome (c.nodes.find? e.name) attempts faults).result,
          c.after e.name (e.outcome (c.nodes.find? e.name) attempts faults)) := by
      intro faults
      rw [ih]
      simp only [Cluster.withFaults, Function.update_self]
      exact congrArg _ (c.after_withFaults e.name faults _)
    rw [attempt, run_call, outcome]
    simp only [serve, Cluster.takeFault]
    rcases nextFault (c.faults e.name) with ⟨_ | failure, faults⟩
    · simp only [Cluster.get, Cluster.withFaults]
      cases hfind : c.nodes.find? e.name with
      | none => rfl
      | some n =>
        simp only
        cases e.inspect n with
        | finish a => rfl
        | wait => exact hfind ▸ hretry faults
        | send patch =>
          have hfind' : (c.withFaults e.name faults).nodes.find? e.name = some n := hfind
          have hpatch := serve_patchNode hfind' patch
          rw [show (c.withFaults e.name faults).faults e.name = faults from
            Function.update_self ..] at hpatch
          change (e.afterPatch attempts (e.attempt attempts)
            (serve (.patchNode e.name patch) (c.withFaults e.name faults)).1).run serve
            (serve (.patchNode e.name patch) (c.withFaults e.name faults)).2 = _
          rw [hpatch]
          dsimp only
          rcases patchAnswer patch n faults with ⟨failure | _, faults'⟩
          · dsimp only [afterPatch]
            rw [c.withFaults_withFaults]
            cases e.onPatchFailure attempts failure with
            | none => exact hfind ▸ hretry faults'
            | some result => rfl
          · dsimp only [afterPatch]
            rw [run_done, c.after_withFaults]
            rfl
    · rfl

/-- An edit of one node leaves the others alone. -/
theorem Cluster.find?_after_ne {α : Type} {c : Cluster} {name x : String} {o : Outcome α}
    (h : x ≠ name) : (c.after name o).nodes.find? x = c.nodes.find? x := by
  unfold Cluster.after
  split
  · rfl
  · simp only [Store.find?_modify_ne h]

theorem Cluster.faults_after_ne {α : Type} {c : Cluster} {name x : String} {o : Outcome α}
    (h : x ≠ name) : (c.after name o).faults x = c.faults x := by
  unfold Cluster.after
  split <;> exact Function.update_of_ne h _ _

/-- What an outcome makes of the node, but for the version. -/
def Outcome.applyTo {α : Type} (o : Outcome α) (n : Node) : Node :=
  match o.accepted with
  | none => n
  | some patch => patch.applyTo n

/-- A node but for its version. -/
def Node.content (n : Node) : Node := { n with resourceVersion := 0 }

/-- The server's node of a name, but for its version. -/
def Cluster.content? (c : Cluster) (name : String) : Option Node :=
  (c.nodes.find? name).map Node.content

/-- The node after the edit. -/
theorem Cluster.content?_after {α : Type} (c : Cluster) (name : String) (o : Outcome α) :
    (c.after name o).content? name = (c.nodes.find? name).map fun n => (o.applyTo n).content := by
  unfold Cluster.after Outcome.applyTo
  cases o.accepted with
  | none => rfl
  | some patch =>
    unfold Cluster.content?
    dsimp only
    cases hfind : c.nodes.find? name with
    | some n =>
      rw [Store.find?_modify_self hfind]
      rfl
    | none =>
      rw [Option.map_none, Option.map_eq_none_iff, ← Option.not_isSome_iff_eq_none]
      intro hsome
      obtain ⟨n', hn'⟩ := Option.isSome_iff_exists.mp hsome
      obtain ⟨n, hn, _⟩ := Store.exists_of_find?_modify hn'
      rw [hfind] at hn
      cases hn

/-! ### Sweeps over several nodes -/

/-- Edit each named node in turn. Failures are passed over; successes are recorded. -/
def sweep {β : Type} (edit : String → Api (Except Failure Unit)) (record : String → β → Api β) :
    β → List String → Api β
  | b, [] => .done b
  | b, name :: rest =>
    (edit name).bind fun
      | .ok () => (record name b).bind fun b => sweep edit record b rest
      | .error _ => sweep edit record b rest

theorem onlyCalls_sweep {β : Type} {P : Op → Prop} {edit : String → Api (Except Failure Unit)}
    {record : String → β → Api β} {names : List String}
    (hedit : ∀ name ∈ names, (edit name).OnlyCalls P)
    (hrecord : ∀ name b, (record name b).OnlyCalls P) (b : β) :
    (sweep edit record b names).OnlyCalls P := by
  induction names generalizing b with
  | nil => trivial
  | cons name rest ih =>
    obtain ⟨hname, hrest⟩ := List.forall_mem_cons.mp hedit
    refine hname.bind fun r => ?_
    cases r with
    | error failure => exact ih hrest b
    | ok _ => exact (hrecord name b).bind fun b => ih hrest b

/-- Every call goes through. -/
def Cluster.Quiet (c : Cluster) : Prop := c.faults = fun _ => []

/-- Clusters that a call of these kinds does not change. -/
def Op.Idle : Op → Prop
  | .getNode _ | .patchNode _ _ => False
  | _ => True

/-- Calls that name no node leave the nodes and the failures alone. -/
theorem serve_idle {op : Op} (hop : op.Idle) (c : Cluster) :
    (serve op c).2.nodes = c.nodes ∧ (serve op c).2.faults = c.faults := by
  cases op with
  | getNode _ => exact absurd hop id
  | patchNode _ _ => exact absurd hop id
  | _ => exact ⟨rfl, rfl⟩

theorem run_idle {β : Type} {p : Api β} (hp : p.OnlyCalls Op.Idle) (c : Cluster) :
    (p.run serve c).2.nodes = c.nodes ∧ (p.run serve c).2.faults = c.faults := by
  refine run_invariant (I := fun c' : Cluster => c'.nodes = c.nodes ∧ c'.faults = c.faults)
    (fun op hop c' hc' => ?_) hp ⟨rfl, rfl⟩
  obtain ⟨hnodes, hfaults⟩ := serve_idle hop c'
  exact ⟨hnodes.trans hc'.1, hfaults.trans hc'.2⟩

section Quiet

variable {α β : Type}

/-- What an edit makes of its node where every call goes through. -/
def Edit.alone (e : Edit α) (attempts : ℕ) (n : Node) : Node :=
  (e.outcome (some n) attempts []).applyTo n

theorem patchAnswer_nil (patch : Patch) (n : Node) :
    patchAnswer patch n [] = (match patch.apply n with
      | .ok _ => .ok ()
      | .error failure => .error failure, []) := by
  unfold patchAnswer nextFault
  cases patch.apply n <;> rfl

/-- An edit that sends an acceptable patch has its effect. -/
theorem Edit.alone_send {e : Edit α} {n n' : Node} {patch : Patch}
    (hinspect : e.inspect n = .send patch) (happly : patch.apply n = .ok n') (attempts : ℕ) :
    e.alone (attempts + 1) n = n' := by
  simp only [alone, outcome, nextFault, hinspect, patchAnswer_nil, happly, Outcome.applyTo,
    Patch.applyTo]

/-- An edit that is done with the node as it finds it leaves it as it is. -/
theorem Edit.alone_finish {e : Edit α} {n : Node} {a : α} (hinspect : e.inspect n = .finish a)
    (attempts : ℕ) : e.alone attempts n = n := by
  cases attempts with
  | zero => rfl
  | succ attempts => simp only [alone, outcome, nextFault, hinspect, Outcome.applyTo]

/-- An edit that waits for the node to change leaves it as it is. -/
theorem Edit.alone_wait {e : Edit α} {n : Node} (hinspect : e.inspect n = .wait) (attempts : ℕ) :
    e.alone attempts n = n := by
  induction attempts with
  | zero => rfl
  | succ attempts ih => simpa only [alone, outcome, nextFault, hinspect] using ih

theorem Edit.faults_outcome_nil (e : Edit α) (node? : Option Node) (attempts : ℕ) :
    (e.outcome node? attempts []).faults = [] := by
  induction attempts with
  | zero => rfl
  | succ attempts ih =>
    rw [outcome, nextFault]
    cases node? with
    | none => rfl
    | some n =>
      dsimp only
      cases e.inspect n with
      | finish a => rfl
      | wait => exact ih
      | send patch =>
        dsimp only
        rw [patchAnswer_nil]
        cases patch.apply n with
        | ok _ => rfl
        | error failure =>
          dsimp only
          cases e.onPatchFailure attempts failure with
          | none => exact ih
          | some result => rfl

theorem quiet_after {c : Cluster} (hc : c.Quiet) (e : Edit α) (attempts : ℕ) :
    (c.after e.name (e.outcome (c.nodes.find? e.name) attempts (c.faults e.name))).Quiet := by
  have hfaults : (c.after e.name
      (e.outcome (c.nodes.find? e.name) attempts (c.faults e.name))).faults =
      Function.update c.faults e.name [] := by
    rw [show c.faults e.name = [] from congrFun hc e.name, Cluster.after]
    split <;> simp only [Cluster.withFaults, e.faults_outcome_nil]
  rw [Cluster.Quiet, hfaults, hc]
  exact Function.update_eq_self e.name fun _ => []

/-- The first edit of a sweep leaves a quiet cluster with that node edited, in which the
rest of the sweep is run. -/
theorem exists_run_sweep_cons {editOf : String → Edit Unit} {attempts : ℕ}
    {record : String → β → Api β} (hname : ∀ name, (editOf name).name = name)
    (hrecord : ∀ name b, (record name b).OnlyCalls Op.Idle) (name : String) (rest : List String)
    {c : Cluster} (hc : c.Quiet) (b : β) :
    ∃ c' b', c'.Quiet ∧
      c'.nodes = (c.after name ((editOf name).outcome (c.nodes.find? name) attempts [])).nodes ∧
      ((sweep (fun name => (editOf name).attempt attempts) record b (name :: rest)).run serve c).2 =
        ((sweep (fun name => (editOf name).attempt attempts) record b' rest).run serve c').2 := by
  have hquiet := quiet_after hc (editOf name) attempts
  rw [hname, show c.faults name = [] from congrFun hc name] at hquiet
  rw [sweep, run_bind, Edit.run_attempt, hname, show c.faults name = [] from congrFun hc name]
  dsimp only
  cases ((editOf name).outcome (c.nodes.find? name) attempts []).result with
  | error failure => exact ⟨_, b, hquiet, rfl, rfl⟩
  | ok _ =>
    obtain ⟨hnodes, hfaults⟩ := run_idle (hrecord name b)
      (c.after name ((editOf name).outcome (c.nodes.find? name) attempts []))
    exact ⟨_, _, hfaults.trans hquiet, hnodes, by rw [run_bind]⟩

/-- A sweep over distinct nodes, where every call goes through, does to each what the edit
does alone. -/
theorem content?_sweep {editOf : String → Edit Unit} {attempts : ℕ} {record : String → β → Api β}
    (hname : ∀ name, (editOf name).name = name)
    (hrecord : ∀ name b, (record name b).OnlyCalls Op.Idle) {names : List String}
    (hnodup : names.Nodup) {c : Cluster} (hc : c.Quiet) (b : β) :
    ((sweep (fun name => (editOf name).attempt attempts) record b names).run serve c).2.Quiet ∧
      ∀ x, ((sweep (fun name => (editOf name).attempt attempts) record b names).run serve
          c).2.content? x =
        (c.nodes.find? x).map fun n =>
          (if x ∈ names then (editOf x).alone attempts n else n).content := by
  induction names generalizing c b with
  | nil => exact ⟨hc, fun x => rfl⟩
  | cons name rest ih =>
    obtain ⟨hnot, hrest⟩ := List.nodup_cons.mp hnodup
    obtain ⟨c', b', hc', hnodes, hrun⟩ := exists_run_sweep_cons hname hrecord name rest hc b
    obtain ⟨hquiet, hcontent⟩ := ih hrest hc' b'
    rw [hrun]
    refine ⟨hquiet, fun x => ?_⟩
    rw [hcontent, hnodes]
    by_cases hx : x = name
    · subst hx
      simp only [hnot, if_false, List.mem_cons, true_or, if_true]
      refine (c.content?_after x _).trans ?_
      cases c.nodes.find? x <;> rfl
    · rw [Cluster.find?_after_ne hx]
      simp only [List.mem_cons, hx, false_or]

end Quiet

end CiInfra.Kube
