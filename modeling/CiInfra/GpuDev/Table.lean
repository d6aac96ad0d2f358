import Mathlib.Data.List.AList
import Mathlib.Data.Rat.Defs
import Mathlib.Logic.Function.Basic

/-!
# The reservations table

One DynamoDB table holds the reservations, the coordination locks and the cached SSH keys.
Items and request bodies are dictionaries. A put replaces a whole item, under a condition if
it carries one; an update changes the named attributes of an item and creates the item if
there is none.
-/

namespace CiInfra.GpuDev

/-- What an attribute can hold. -/
inductive Value
  | null
  | text (s : String)
  | number (q : ℚ)
  | flag (b : Bool)
  | list (l : List Value)
  | dict (l : List (String × Value))

/-- Python's truth value. -/
def Value.truthy : Value → Bool
  | null => false
  | text s => s ≠ ""
  | number q => q ≠ 0
  | flag b => b
  | list l => !l.isEmpty
  | dict l => !l.isEmpty

/-- A dictionary: an item of the table or the body of a request. -/
abbrev Attributes := String → Option Value

namespace Attributes

/-- A dictionary written out; a later entry replaces an earlier one. -/
def ofList (l : List (String × Value)) : Attributes := fun name =>
  l.reverse.lookup name

/-- Assign an attribute. -/
def set (a : Attributes) (name : String) (v : Value) : Attributes :=
  Function.update a name (some v)

/-- Assign several attributes. -/
def overlay (a : Attributes) (fields : List (String × Value)) : Attributes := fun name =>
  (ofList fields name).or (a name)

theorem overlay_apply (a : Attributes) (fields : List (String × Value)) (name : String) :
    a.overlay fields name = (ofList fields name).or (a name) := rfl

/-- The truth value of an attribute; a missing one is false. -/
def truthy (a : Attributes) (name : String) : Bool := ((a name).map Value.truthy).getD false

/-- A text attribute; a missing one, or one that is no text, reads as the default. -/
def text (a : Attributes) (name : String) (default : String := "") : String :=
  match a name with
  | some (.text s) => s
  | _ => default

/-- A numeric attribute. -/
def number (a : Attributes) (name : String) (default : ℚ) : ℚ :=
  match a name with
  | some (.number q) => q
  | _ => default

/-- A count in an attribute. -/
def natural (a : Attributes) (name : String) (default : ℕ) : ℕ :=
  match a name with
  | some (.number q) => q.floor.toNat
  | _ => default

/-- Carry an attribute over to another dictionary if it is there and true. -/
def carryTruthy (a : Attributes) (name : String) (dest : Attributes) (field : String) :
    Attributes :=
  match a name with
  | some v => if v.truthy then dest.set field v else dest
  | none => dest

/-- Carry an attribute over to another dictionary if it is there. -/
def carry (a : Attributes) (name : String) (dest : Attributes) (field : String) : Attributes :=
  match a name with
  | some v => dest.set field v
  | none => dest

/-- The key under which an item is stored. -/
def key (item : Attributes) : String := item.text "reservation_id"

end Attributes

/-- `TERMINATED_RESERVATION_STATUSES`. -/
def terminatedReservationStatuses : List String :=
  ["cancelled", "canceled", "expired", "failed", "completed"]

/-- The statuses of a reservation that is waiting, being set up or in use. -/
def liveStatuses : List String := ["pending", "queued", "preparing", "active"]

/-- An attribute is one of these texts. -/
def Attributes.isOneOf (a : Attributes) (name : String) (texts : List String) : Bool :=
  match a name with
  | some (.text s) => texts.contains s
  | _ => false

/-- What `_reservation_is_terminated` looks at. -/
def Attributes.isTerminated (item : Attributes) : Bool :=
  item.truthy "cancelled_at" || item.isOneOf "status" terminatedReservationStatuses

/-- The reservation has ended: it was cancelled, or it is cancelled, expired, failed or
completed. -/
def Attributes.hasEnded (item : Attributes) : Bool :=
  item.truthy "cancelled_at" ||
    item.isOneOf "status" ["cancelled", "expired", "failed", "completed"]

theorem Attributes.isTerminated_of_hasEnded {item : Attributes} (h : item.hasEnded = true) :
    item.isTerminated = true := by
  simp only [hasEnded, isTerminated, isOneOf, Bool.or_eq_true] at h ⊢
  refine h.imp_right fun h => ?_
  split at h
  · simp only [terminatedReservationStatuses, List.contains_eq_mem, decide_eq_true_eq,
      List.mem_cons, List.not_mem_nil, or_false] at h ⊢
    tauto
  · exact h

/-! ### Conditions and changes -/

/-- The condition of a conditional put. -/
inductive Condition
  /-- `attribute_not_exists(reservation_id) OR (attribute_not_exists(cancelled_at) AND
  (attribute_not_exists(#status) OR (#status <> :cancelled AND ...)))`. -/
  | notTerminated
  /-- `attribute_not_exists(reservation_id) OR expires_at < :now`. -/
  | lockFree (now : ℚ)

/-- The condition holds of the stored item. -/
def Condition.holds : Condition → Option Attributes → Bool
  | _, none => true
  | notTerminated, some item =>
    (item "cancelled_at").isNone && !item.isOneOf "status" terminatedReservationStatuses
  | lockFree now, some item =>
    match item "expires_at" with
    | some (.number q) => q < now
    | _ => false

/-- An update expression. -/
inductive Update
  /-- `SET name = value, ...`. -/
  | set (fields : List (String × Value))
  /-- `SET name = list_append(if_not_exists(name, []), [value])`. -/
  | append (name : String) (v : Value)

/-- Change an item. Appending to what is no list is refused. -/
def Update.apply (item : Attributes) : Update → Option Attributes
  | set fields => some (item.overlay fields)
  | append name v =>
    match item name with
    | none => some (item.set name (.list [v]))
    | some (.list l) => some (item.set name (.list (l ++ [v])))
    | some _ => none

/-- The value an update assigns to the status. -/
def Update.status : Update → Option Value
  | set fields => Attributes.ofList fields "status"
  | append name v => if name = "status" then some (.list [v]) else none

/-- The update names neither the status nor the cancellation mark. -/
def Update.IsNeutral : Update → Prop
  | set fields => ∀ f ∈ fields, f.1 ≠ "status" ∧ f.1 ≠ "cancelled_at"
  | append name _ => name ≠ "status" ∧ name ≠ "cancelled_at"

theorem Attributes.ofList_eq_none {l : List (String × Value)} {name : String}
    (h : ∀ f ∈ l, f.1 ≠ name) : ofList l name = none := by
  rw [ofList, List.lookup_eq_none_iff]
  exact fun f hf => by simpa using (h f (List.mem_reverse.mp hf)).symm

theorem Attributes.ofList_append (l m : List (String × Value)) (name : String) :
    ofList (l ++ m) name = (ofList m name).or (ofList l name) := by
  simp [ofList, List.lookup_append]

/-- A neutral update changes neither the status nor the cancellation mark. -/
theorem Update.apply_neutral {u : Update} {item item' : Attributes}
    (h : u.apply item = some item') (hu : u.IsNeutral) :
    item' "status" = item "status" ∧ item' "cancelled_at" = item "cancelled_at" := by
  cases u with
  | set fields =>
    cases h
    rw [Attributes.overlay_apply, Attributes.overlay_apply,
      Attributes.ofList_eq_none fun f hf => (hu f hf).1,
      Attributes.ofList_eq_none fun f hf => (hu f hf).2]
    exact ⟨rfl, rfl⟩
  | append name v =>
    have hset : ∀ w, item.set name w "status" = item "status" ∧
        item.set name w "cancelled_at" = item "cancelled_at" := fun w =>
      ⟨Function.update_of_ne hu.1.symm _ _, Function.update_of_ne hu.2.symm _ _⟩
    simp only [apply] at h
    split at h <;> cases h
    · exact hset _
    · exact hset _

theorem Update.apply_status {fields : List (String × Value)} {item item' : Attributes} {v : Value}
    (h : (Update.set fields).apply item = some item') (hv : (Update.set fields).status = some v) :
    item' "status" = some v := by
  cases h
  have hv : Attributes.ofList fields "status" = some v := hv
  rw [Attributes.overlay_apply, hv]
  rfl

/-- What satisfies the condition of `_put_reservation_record` has not been terminated. -/
theorem Condition.isTerminated_of_holds {item : Attributes}
    (h : Condition.notTerminated.holds (some item) = true) : item.isTerminated = false := by
  simp only [holds, Bool.and_eq_true, Option.isNone_iff_eq_none, Bool.not_eq_true'] at h
  simp [Attributes.isTerminated, Attributes.truthy, h.1, h.2]

/-! ### The table -/

/-- The table: the item stored under each key. -/
abbrev Table := AList fun _ : String => Attributes

namespace Table

/-- The item stored under a key. -/
def get (t : Table) (id : String) : Option Attributes := t.lookup id

/-- Store an item. -/
def store (t : Table) (id : String) (item : Attributes) : Table := t.insert id item

/-- Put an item if the condition holds of what it replaces. -/
def put (t : Table) (item : Attributes) (condition : Option Condition) : Option Table :=
  if condition.all (·.holds (t.get item.key)) then some (t.store item.key item) else none

/-- Update an item, or a fresh one that has its key only. -/
def update (t : Table) (id : String) (u : Update) : Option Table :=
  (u.apply ((t.get id).getD (.ofList [("reservation_id", .text id)]))).map (t.store id)

/-- Delete an item. -/
def delete (t : Table) (id : String) : Table := t.erase id

/-- The items in the table. -/
def items (t : Table) : List Attributes := t.entries.map (·.2)

/-- The record has ended. -/
def hasEnded (t : Table) (id : String) : Bool := ((t.get id).map Attributes.hasEnded).getD false

/-- The status of a record. -/
def status (t : Table) (id : String) : Option Value := (t.get id).bind (· "status")

@[simp] theorem get_store_self (t : Table) (id : String) (item : Attributes) :
    (t.store id item).get id = some item := AList.lookup_insert t

theorem get_store_of_ne (t : Table) {id other : String} (h : other ≠ id) (item : Attributes) :
    (t.store id item).get other = t.get other := AList.lookup_insert_ne h

@[simp] theorem get_delete_self (t : Table) (id : String) : (t.delete id).get id = none :=
  AList.lookup_erase id t

theorem get_delete_of_ne (t : Table) {id other : String} (h : other ≠ id) :
    (t.delete id).get other = t.get other := AList.lookup_erase_ne h

/-- A put that goes through stores its item, and the condition held. -/
theorem put_eq_some {t t' : Table} {item : Attributes} {condition : Option Condition}
    (h : t.put item condition = some t') :
    condition.all (·.holds (t.get item.key)) = true ∧ t' = t.store item.key item := by
  unfold put at h
  split at h
  · cases h
    exact ⟨‹_›, rfl⟩
  · cases h

/-- An update that goes through stores what it makes of the item. -/
theorem update_eq_some {t t' : Table} {id : String} {u : Update} (h : t.update id u = some t') :
    ∃ item, u.apply ((t.get id).getD (.ofList [("reservation_id", .text id)])) = some item ∧
      t' = t.store id item := by
  obtain ⟨item, hitem, rfl⟩ := Option.map_eq_some_iff.mp h
  exact ⟨item, hitem, rfl⟩

end Table

/-! ### Keys -/

/-- The key of a coordination lock. -/
def lockKey (masterReservationId : String) : String := "lock:" ++ masterReservationId

/-- The key of the cached SSH keys of a user. -/
def sshKeyCacheKey (user : String) : String := "ssh-key-cache-" ++ user

/-- The key is that of a reservation, not of a lock or of cached keys. -/
def isReservationKey (id : String) : Bool :=
  !("lock:".toList.isPrefixOf id.toList || "ssh-key-cache-".toList.isPrefixOf id.toList)

/-- The body names a reservation. -/
def Attributes.NamesReservation (body : Attributes) : Prop :=
  body.key ≠ "" ∧ isReservationKey body.key = true

instance (body : Attributes) : Decidable body.NamesReservation :=
  inferInstanceAs (Decidable (_ ∧ _))

theorem isReservationKey_lockKey (master : String) : isReservationKey (lockKey master) = false := by
  simp only [isReservationKey, lockKey, String.toList_append, Bool.not_eq_false',
    Bool.or_eq_true, List.isPrefixOf_iff_prefix]
  exact Or.inl (List.prefix_append _ _)

theorem isReservationKey_sshKeyCacheKey (user : String) :
    isReservationKey (sshKeyCacheKey user) = false := by
  simp only [isReservationKey, sshKeyCacheKey, String.toList_append, Bool.not_eq_false',
    Bool.or_eq_true, List.isPrefixOf_iff_prefix]
  exact Or.inr (List.prefix_append _ _)

end CiInfra.GpuDev
