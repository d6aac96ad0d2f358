import CiInfra.Kube.Objects
import CiInfra.Lib.History

/-!
# Removing a startup taint

The remover reads its node, looks for the first taint with the key, and asks the API server to
remove the taint at that index if it has the key still. Other controllers may change the taints
between any two of its calls. The loop has no bound; `rounds` bounds the part of it that is run,
and every finite part of a run is one for some bound.
-/

namespace CiInfra.TaintRemover

open Interaction Program
open Kube (Taint)

/-! ### Patches of the taints -/

/-- The RFC 6902 operations that the remover sends. -/
inductive JsonOp
  /-- `test` on `/spec/taints/{index}/key`. -/
  | testKey (index : ℕ) (value : String)
  /-- `remove` at `/spec/taints/{index}`. -/
  | remove (index : ℕ)
  deriving DecidableEq

/-- What one operation makes of the taints; `none` if it fails. -/
def JsonOp.apply (taints : List Taint) : JsonOp → Option (List Taint)
  | testKey index value => if taints[index]?.map Taint.key = some value then some taints else none
  | remove index => if index < taints.length then some (taints.eraseIdx index) else none

/-- Operations apply in order; a failing one fails the patch as a whole. -/
def applyPatch : List JsonOp → List Taint → Option (List Taint)
  | [], taints => some taints
  | op :: ops, taints => (op.apply taints).bind (applyPatch ops)

/-! ### Calls -/

/-- What becomes of a request: an HTTP answer, an error that is taken for a transient one
(`URLError`, `TimeoutError`, `ConnectionError`, `OSError`), or another exception. -/
inductive Response (Body : Type)
  | http (status : ℕ) (body : Body)
  | networkError
  | otherError

inductive Op
  | readToken
  | getNode (token : String)
  | patchNode (token : String) (patch : List JsonOp)
  | sleep (seconds : ℕ)

/-- The answers. There may be no token; a body may fail to be a node. -/
def Op.Res : Op → Type
  | readToken => Option String
  | getNode _ => Response (Option (List Taint))
  | patchNode _ _ => Response Unit
  | sleep _ => Unit

/-- How a call may be answered. A node that is read is read as it is. A patch is applied whole or
not at all; one that is answered with 200 has been applied, whatever becomes of other answers. -/
def serves : (op : Op) → List Taint → op.Res → List Taint → Prop
  | .readToken, taints, _, taints' => taints' = taints
  | .getNode _, taints, answer, taints' =>
    taints' = taints ∧ ∀ read, answer = .http 200 (some read) → read = taints
  | .patchNode _ patch, taints, answer, taints' =>
    (taints' = taints ∨ applyPatch patch taints = some taints') ∧
      ∀ body, answer = .http 200 body → applyPatch patch taints = some taints'
  | .sleep _, taints, _, taints' => taints' = taints

/-- Other controllers add, remove and reorder taints as they like. -/
def env (_ _ : List Taint) : Prop := True

/-! ### The loop -/

/-- `_find_taint_index`. -/
def findTaintIndex (taints : List Taint) (key : String) : Option ℕ :=
  taints.findIdx? fun t => t.key = key

/-- The patch that `_patch_remove_taint` sends. -/
def removePatch (index : ℕ) (key : String) : List JsonOp := [.testKey index key, .remove index]

/-- `BACKOFF_SCHEDULE`. -/
def backoffSchedule : List ℕ := [5, 10, 30]

/-- `_next_backoff`. -/
def nextBackoff (attempt : ℕ) : ℕ :=
  backoffSchedule.getD (min attempt (backoffSchedule.length - 1)) 0

/-- What is made of an answer that does not decide the matter. -/
inductive Retry
  /-- Read the node again at once, with the attempts counted from zero. -/
  | reread
  | backOff
  | raise
  deriving DecidableEq

/-- `_get_node`, and the handlers around it. -/
def readNode : Response (Option (List Taint)) → Except Retry (List Taint)
  | .http status body =>
    if status = 200 then
      match body with
      | some taints => .ok taints
      | none => .error .raise
    else if (500 ≤ status ∧ status < 600) ∨ status = 429 then .error .backOff
    else .error .raise
  | .networkError => .error .backOff
  | .otherError => .error .raise

/-- What follows the patch: `ok` is the return after `Removed taint`. -/
def afterPatch : Response Unit → Except Retry Unit
  | .http status _ =>
    if status = 200 then .ok ()
    else if status = 409 ∨ status = 422 then .error .reread
    else if status = 401 then .error .reread
    else if 500 ≤ status ∧ status < 600 then .error .backOff
    else if 400 ≤ status ∧ status < 500 then .error .raise
    else .error .backOff
  | .networkError => .error .backOff
  | .otherError => .error .raise

/-- Where the function is: it has returned or raised, or it goes on trying. -/
inductive Outcome
  | returned
  | raised
  | trying
  deriving DecidableEq

/-- Go on after an answer that does not decide the matter. -/
def retry (again : ℕ → Program Op Op.Res Outcome) (attempt : ℕ) :
    Retry → Program Op Op.Res Outcome
  | .reread => again 0
  | .backOff => call (.sleep (nextBackoff attempt)) fun _ => again (attempt + 1)
  | .raise => done .raised

/-- One round of the loop of `remove_taint_forever`. -/
def removeRound (key : String) (again : ℕ → Program Op Op.Res Outcome) (attempt : ℕ) :
    Program Op Op.Res Outcome :=
  call .readToken fun
    | none => done .raised
    | some token =>
      call (.getNode token) fun answer =>
        match readNode answer with
        | .error e => retry again attempt e
        | .ok taints =>
          match findTaintIndex taints key with
          | none => done .returned
          | some index =>
            call (.patchNode token (removePatch index key)) fun answer =>
              match afterPatch answer with
              | .ok () => done .returned
              | .error e => retry again attempt e

/-- `remove_taint_forever`, for a number of rounds. -/
def removeTaintForever (key : String) : ℕ → ℕ → Program Op Op.Res Outcome
  | 0, _ => done .trying
  | rounds + 1, attempt => removeRound key (removeTaintForever key rounds) attempt

end CiInfra.TaintRemover
