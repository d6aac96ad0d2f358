import CiInfra.Kube.ApiServer

/-!
# Optimistic edits of a node

The controllers edit a node by reading it, deciding on a patch from what they read, and
sending the patch; a conflict starts over, up to a number of attempts. This file has that
loop once, with what it guarantees among arbitrary other writers.
-/

namespace CiInfra.Kube

open Interaction Interaction.Program VersionedStore

/-- What an edit decides after reading the node. -/
inductive Inspection (α : Type)
  /-- Nothing to do. -/
  | finish (a : α)
  /-- Read again at the next attempt. -/
  | wait
  /-- Send a patch. -/
  | send (patch : Patch)

/-- An edit of one node: how it reads a snapshot and how it reacts to failures. A failed
patch is retried where `onPatchFailure`, given the attempts left, has no result. -/
structure Edit (α : Type) where
  name : String
  inspect : Node → Inspection α
  onGetFailure : Failure → Except Failure α
  onPatchFailure : ℕ → Failure → Option (Except Failure α)
  completed : α
  exhausted : α

namespace Edit

variable {α : Type}

/-- The reaction to the answer of a patch; `retry` is the rest of the attempts. -/
def afterPatch (e : Edit α) (attempts : ℕ) (retry : Api (Except Failure α)) :
    Except Failure Unit → Api (Except Failure α)
  | .ok () => .done (.ok e.completed)
  | .error failure =>
    match e.onPatchFailure attempts failure with
    | none => retry
    | some result => .done result

/-- The edit with a number of attempts left. -/
def attempt (e : Edit α) : ℕ → Api (Except Failure α)
  | 0 => .done (.ok e.exhausted)
  | attempts + 1 =>
    .call (.getNode e.name) fun
      | .error failure => .done (e.onGetFailure failure)
      | .ok node =>
        match e.inspect node with
        | .finish a => .done (.ok a)
        | .wait => attempt e attempts
        | .send patch =>
          .call (.patchNode e.name patch) (e.afterPatch attempts (attempt e attempts))

theorem afterPatch_cases (e : Edit α) (attempts : ℕ) (retry : Api (Except Failure α))
    (r : Except Failure Unit) :
    e.afterPatch attempts retry r = retry ∨ ∃ a, e.afterPatch attempts retry r = .done a := by
  cases r with
  | ok _ => exact Or.inr ⟨_, rfl⟩
  | error failure =>
    unfold afterPatch
    dsimp only
    split
    · exact Or.inl rfl
    · exact Or.inr ⟨_, rfl⟩

/-- An edit calls nothing but reads and patches of its node. -/
theorem onlyCalls_attempt (e : Edit α) (attempts : ℕ) :
    (e.attempt attempts).OnlyCalls fun op =>
      op = .getNode e.name ∨ ∃ node patch, e.inspect node = .send patch ∧
        op = .patchNode e.name patch := by
  induction attempts with
  | zero => trivial
  | succ attempts ih =>
    refine ⟨Or.inl rfl, fun r => ?_⟩
    cases r with
    | error failure => trivial
    | ok node =>
      dsimp only
      split
      · trivial
      · exact ih
      · refine ⟨Or.inr ⟨node, _, ‹_›, rfl⟩, fun r => ?_⟩
        rcases e.afterPatch_cases attempts (e.attempt attempts) r with heq | ⟨a, heq⟩
        · rw [heq]
          exact ih
        · rw [heq]
          trivial

end Edit

/-! ### Among other writers -/

/-- How the server may answer. A read answers the node as it is; a patch that is accepted
takes effect even where the answer is lost; a call that fails otherwise changes nothing. -/
inductive Answers : (op : Op) → Store Node → op.Res → Store Node → Prop
  | get {name : String} {s : Store Node} {n : Node} (h : s.find? name = some n) :
      Answers (.getNode name) s (.ok n) s
  | getFailed {name : String} {s : Store Node} (failure : Failure) :
      Answers (.getNode name) s (.error failure) s
  | accepted {name : String} {p : Patch} {s : Store Node} {n n' : Node}
      (h : s.find? name = some n) (hp : p.apply n = .ok n') (r : Except Failure Unit) :
      Answers (.patchNode name p) s r (s.modify name p.applyTo p.name_applyTo)
  | patchFailed {name : String} {p : Patch} {s : Store Node} (failure : Failure) :
      Answers (.patchNode name p) s (.error failure) s
  | list {s : Store Node} : Answers .listNodes s (.ok s.records) s
  | listFailed {s : Store Node} (failure : Failure) : Answers .listNodes s (.error failure) s

theorem Answers.evolves {op : Op} {s s' : Store Node} {r : op.Res} (h : Answers op s r s') :
    s.Evolves s' := by
  cases h with
  | get h => exact Store.Evolves.refl s
  | getFailed => exact Store.Evolves.refl s
  | accepted => exact Store.evolves_modify ..
  | patchFailed => exact Store.Evolves.refl s
  | list => exact Store.Evolves.refl s
  | listFailed => exact Store.Evolves.refl s

/-- The calls that read or write nodes. -/
def Op.OnNodes : Op → Prop
  | .listNodes | .getNode _ | .patchNode _ _ => True
  | _ => False

/-- The server of sequential runs answers as any server may. -/
theorem answers_serve {op : Op} (hop : op.OnNodes) (c : Cluster) :
    Answers op c.nodes (serve op c).1 (serve op c).2.nodes := by
  have htake : ∀ name, (c.takeFault name).2.nodes = c.nodes := fun _ => rfl
  cases op with
  | listNodes => exact .list
  | getNode name =>
    simp only [serve]
    have hnodes := htake name
    generalize c.takeFault name = fc at hnodes
    obtain ⟨f, c'⟩ := fc
    simp only at hnodes
    cases f with
    | some failure =>
      rw [show c'.nodes = c.nodes from hnodes]
      exact .getFailed failure
    | none =>
      simp only [hnodes, Cluster.get]
      cases hfind : c.nodes.find? name with
      | none => exact .getFailed _
      | some n => exact .get hfind
  | patchNode name p =>
    simp only [serve]
    have hnodes := htake name
    generalize c.takeFault name = fc at hnodes
    obtain ⟨f, c'⟩ := fc
    simp only at hnodes
    cases f with
    | some failure =>
      rw [show c'.nodes = c.nodes from hnodes]
      exact .patchFailed failure
    | none =>
      simp only [Cluster.patch, hnodes]
      cases hfind : c.nodes.find? name with
      | none =>
        simp only [hnodes]
        exact .patchFailed _
      | some n =>
        simp only
        cases happly : p.apply n with
        | error failure =>
          simp only [hnodes]
          exact .patchFailed failure
        | ok n' => exact .accepted hfind happly _
  | _ => exact absurd hop id

/-- The stages of an edit: about to read, about to send the patch decided on from a
snapshot of its node, or finished. -/
inductive Edit.Stage {α : Type} (e : Edit α) (s : Store Node) : Api (Except Failure α) → Prop
  | reading (attempts : ℕ) : Stage e s (e.attempt attempts)
  | finished (a : Except Failure α) : Stage e s (.done a)
  | sending {node : Node} {patch : Patch} {next : Except Failure Unit → Api (Except Failure α)}
      (hseen : s.Seen node) (hname : node.name = e.name) (hsend : e.inspect node = .send patch)
      (hnext : ∀ r, (∃ attempts, next r = e.attempt attempts) ∨ ∃ a, next r = .done a) :
      Stage e s (.call (.patchNode e.name patch) next)

namespace Edit.Stage

variable {α : Type} {e : Edit α} {s s' : Store Node}

/-- Whatever is written meanwhile, the stage stays what it was. -/
theorem evolves {p : Api (Except Failure α)} (h : e.Stage s p) (hs : s.Evolves s') :
    e.Stage s' p := by
  cases h with
  | reading attempts => exact reading attempts
  | finished a => exact finished a
  | sending hseen hname hsend hnext => exact sending (hseen.evolves hs) hname hsend hnext

/-- Each answer takes an edit to its next stage. -/
theorem next {op : Op} {next : op.Res → Api (Except Failure α)} {r : op.Res}
    (h : e.Stage s (.call op next)) (hr : Answers op s r s') : e.Stage s' (next r) := by
  generalize hp : Program.call op next = p at h
  cases h with
  | finished a => cases hp
  | sending hseen hname hsend hnext =>
    cases hp
    rcases hnext r with ⟨attempts, heq⟩ | ⟨a, heq⟩
    · exact heq ▸ reading attempts
    · exact heq ▸ finished a
  | reading attempts =>
    cases attempts with
    | zero => cases hp
    | succ attempts =>
      cases hp
      cases hr with
      | getFailed failure => exact finished _
      | @get _ _ n hfind =>
        dsimp only
        split
        · exact finished _
        · exact reading attempts
        · rename_i hsend
          refine sending (Store.seen_of_mem (Store.mem_of_find? hfind))
            (Store.key_of_find? hfind) hsend fun r => ?_
          exact (e.afterPatch_cases attempts _ r).imp_left fun heq => ⟨attempts, heq⟩

end Edit.Stage

/-- In every state that any edits, together with any other writers, can reach, every edit
is at one of its stages. -/
theorem Edit.stage_of_reachable {ι α : Type} [DecidableEq ι] {edits : ι → Edit α}
    {S T : System ι Op Op.Res (Except Failure α) (Store Node)}
    (hinit : ∀ i, ∃ attempts, S.procs i = (edits i).attempt attempts)
    (h : Reachable Answers Store.Evolves S T) (i : ι) : (edits i).Stage T.state (T.procs i) := by
  refine h.forall_procs (I := fun i s p => (edits i).Stage s p) ?_ ?_ ?_ ?_ i
  · intro i
    obtain ⟨attempts, heq⟩ := hinit i
    exact heq ▸ .reading attempts
  · exact fun i s op next r s' hstage hr => hstage.next hr
  · exact fun i s op r s' p hstage hr => hstage.evolves hr.evolves
  · exact fun i s s' p hstage hs => hstage.evolves hs

/-- A patch that an edit is about to send was decided on from a snapshot of its node. -/
theorem Edit.snapshot_of_sending {ι α : Type} [DecidableEq ι] {edits : ι → Edit α}
    {S T : System ι Op Op.Res (Except Failure α) (Store Node)}
    (hinit : ∀ i, ∃ attempts, S.procs i = (edits i).attempt attempts)
    (h : Reachable Answers Store.Evolves S T) {i : ι} {name : String} {patch : Patch}
    {next : Except Failure Unit → Api (Except Failure α)}
    (hsending : T.procs i = .call (.patchNode name patch) next) :
    ∃ node, (edits i).inspect node = .send patch ∧ node.name = name ∧ T.state.Seen node := by
  have hstage := Edit.stage_of_reachable hinit h i
  rw [hsending] at hstage
  generalize hp : (.call (.patchNode name patch) next : Api (Except Failure α)) = p at hstage
  cases hstage with
  | finished a => cases hp
  | reading attempts => cases attempts <;> cases hp
  | @sending node _ _ hseen hname hsend _ =>
    cases hp
    exact ⟨node, hsend, hname, hseen⟩

/-- An edit alone on the server gets to send the patch it decides on. -/
theorem Edit.exists_reachable_sending {α : Type} (e : Edit α) (attempts : ℕ) {n : Node}
    {patch : Patch} (hname : n.name = e.name) (hsend : e.inspect n = .send patch) :
    ∃ T : System Unit Op Op.Res (Except Failure α) (Store Node), ∃ next,
      Reachable Answers Store.Evolves
        ⟨Store.singleton n, fun _ => e.attempt (attempts + 1)⟩ T ∧
      T.state = Store.singleton n ∧ T.procs () = .call (.patchNode e.name patch) next := by
  have hfind : (Store.singleton n).find? e.name = some n := hname ▸ Store.find?_singleton n
  refine ⟨_, e.afterPatch attempts (e.attempt attempts),
    Relation.ReflTransGen.single (Step.proc (i := ()) rfl (Answers.get hfind)), rfl, ?_⟩
  simp only [Function.update_self, hsend]

end CiInfra.Kube
