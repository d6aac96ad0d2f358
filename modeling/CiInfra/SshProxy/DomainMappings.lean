import CiInfra.Lib.Program
import CiInfra.Lib.PythonNumber
import Mathlib.Algebra.Order.Ring.Rat

/-!
# The domain mappings of the SSH proxy

A domain mapping leads from the name of a reservation to the port of its pod. Mappings are stored
in two shapes, with expiry times in two formats, and are later marked inactive, extended or deleted
by name, each by a service of its own. An update creates the item where there is none.
-/

namespace CiInfra.SshProxy

open Interaction Interaction.Program

/-- An expiry time: a Unix time, or an ISO date. -/
inductive Expiry
  | unix (t : ℤ)
  | iso (t : ℚ)
  deriving DecidableEq

def Expiry.time : Expiry → ℚ
  | unix t => t
  | iso t => t

/-- An item of the table, without its key. -/
structure Mapping where
  targetHost : Option String := none
  targetPort : Option ℤ := none
  nodeIp : Option String := none
  nodePort : Option ℤ := none
  reservationId : Option String := none
  podName : Option String := none
  active : Option Bool := none
  expiresAt : Option Expiry := none
  createdAt : Option ℚ := none
  updatedAt : Option ℚ := none
  inactiveAt : Option ℚ := none
  deriving DecidableEq

/-- What the services write, each under a name. -/
inductive Write
  /-- `store_domain_mapping`, also for warm pods, whose reservation is `warm`. -/
  | store (domainName : String) (targetIp : Option String) (targetPort : ℤ)
      (reservationId : String) (expiresAt : ℤ)
  /-- `update_reservation_connection_info`. -/
  | connect (domainName : String) (targetIp : Option String) (nodePort : ℤ)
      (reservationId podName : String) (expiresAt now : ℚ)
  /-- `process_cancellation_request`. -/
  | cancel (domainName : String) (now : ℚ)
  /-- `process_extend_reservation_action`. -/
  | extend (domainName : String) (newExpiresAt now : ℚ)
  /-- `delete_domain_mapping`, and the time to live of the table. -/
  | delete (domainName : String)

namespace Write

def domainName : Write → String
  | store name .. => name
  | connect name .. => name
  | cancel name _ => name
  | extend name .. => name
  | delete name => name

/-- What the item of the name becomes. -/
def update (item : Option Mapping) : Write → Option Mapping
  | store _ targetIp targetPort reservationId expiresAt =>
    some
      { nodeIp := targetIp
        nodePort := some targetPort
        reservationId := some reservationId
        expiresAt := some (.unix expiresAt) }
  | connect _ targetIp nodePort reservationId podName expiresAt now =>
    some
      { targetHost := targetIp
        targetPort := some nodePort
        reservationId := some reservationId
        podName := some podName
        active := some true
        expiresAt := some (.iso expiresAt)
        createdAt := some now
        updatedAt := some now }
  | cancel _ now =>
    some { item.getD {} with active := some false, inactiveAt := some now, updatedAt := some now }
  | extend _ newExpiresAt now =>
    some { item.getD {} with expiresAt := some (.iso newExpiresAt), updatedAt := some now }
  | delete _ => none

end Write

/-- The table: the items by name. -/
abbrev Table := String → Option Mapping

/-- The table after a write. -/
def Table.write (t : Table) (w : Write) : Table :=
  Function.update t w.domainName (w.update (t w.domainName))

/-- The table that a history of writes leaves of an empty one. -/
def tableAfter (history : List Write) : Table := history.foldl Table.write fun _ => none

/-! ### Storing a mapping -/

inductive PutFailure
  | conditionalCheckFailed
  | other

/-- The calls of `store_domain_mapping`. -/
inductive Op
  | wallClock
  /-- Write if there is no item, or none that expires, or it has expired at this time. -/
  | putItemIf (w : Write) (now : ℤ)
  | putItem (w : Write)
  | getItem (domainName : String)

def Op.Res : Op → Type
  | wallClock => ℚ
  | putItemIf _ _ => Except PutFailure Unit
  | putItem _ => Except PutFailure Unit
  | getItem _ => Except PutFailure (Option Mapping)

/-- The expiry time of an existing item has passed; without one it counts as 0. -/
def hasExpired (existing : Option Mapping) (now : ℚ) : Bool :=
  ((existing.bind Mapping.expiresAt).map Expiry.time).getD 0 < now

/-- Store a domain mapping. A collision with a mapping that has expired by its ISO date, which the
condition cannot tell, is overwritten. -/
def storeDomainMapping (configured : Bool) (subdomain : String) (targetIp : Option String)
    (targetPort : ℤ) (reservationId : String) (expiresAt : ℤ) : Program Op Op.Res Bool :=
  let item := Write.store subdomain targetIp targetPort reservationId expiresAt
  if !configured then .done true
  else
    .call .wallClock fun now =>
      .call (.putItemIf item (PythonNumber.truncate now)) fun
        | .ok _ => .done true
        | .error .other => .done false
        | .error .conditionalCheckFailed =>
          .call (.getItem subdomain) fun
            | .error _ => .done false
            | .ok existing =>
              .call .wallClock fun now =>
                if hasExpired existing now then
                  .call (.putItem item) fun
                    | .ok _ => .done true
                    | .error _ => .done false
                else .done false

/-- When a call may be issued. Over an item that is there a mapping is put only if the condition
holds, or right after the item was found to have expired. -/
def MayCall (item : Write) (past : List (Program.Event Op Op.Res)) : Op → Prop
  | .putItemIf w now => w = item ∧ ∃ time past', past = ⟨.wallClock, time⟩ :: past' ∧
      now = PythonNumber.truncate time
  | .putItem w => w = item ∧ ∃ time existing past', hasExpired existing time = true ∧
      past = ⟨.wallClock, time⟩ :: ⟨.getItem item.domainName, .ok existing⟩ :: past'
  | _ => True

/-- The call has put a mapping. -/
def isPut : Program.Event Op Op.Res → Bool
  | ⟨.putItemIf _ _, .ok _⟩ => true
  | ⟨.putItem _, .ok _⟩ => true
  | _ => false

end CiInfra.SshProxy
