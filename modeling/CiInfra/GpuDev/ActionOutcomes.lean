import CiInfra.GpuDev.LifecycleMessages
import CiInfra.Lib.Runs

/-!
# What becomes of an action

A user extends a reservation, or adds another user to it, by a message in a queue. The processor
leaves the outcome in the record of the reservation, where others write too, and the client polls
the record for three minutes. When is the outcome that it reports the one of its own message?
-/

namespace CiInfra.GpuDev.ActionOutcomes

open Lifecycle (Stamp newExpiry)

/-! ### Records and requests -/

/-- The record of a reservation, with what the actions read and write. An empty text stands for a
missing one. -/
structure Record where
  id : String
  userId : String
  status : String
  expiresAt : String
  launchedAt : String
  durationHours : Option ℚ
  podName : String
  domainName : String
  extensionError : String
  addUserError : String
  secondaryUsers : List String

/-- The record that an update creates where there is none. -/
def Record.fresh (id : String) : Record := ⟨id, "", "", "", "", none, "", "", "", "", []⟩

inductive Action
  | extend (hours : ℚ)
  | addUser (githubUsername : String)

structure Request where
  reservationId : String
  userId : String
  action : Action

/-- `fromisoformat`, `isoformat` and `isalnum`, and what each call asks for. -/
structure Setup (ι : Type) where
  time? : String → Option ℚ
  isoformat : ℚ → String
  isAlnum : Char → Bool
  request : ι → Request

variable {ι κ : Type} (v : Setup ι)

/-- A date in a record. -/
def Setup.stamp (text : String) : Stamp :=
  match v.time? text with
  | some t => .moment t
  | none => .garbled

/-- An error of a request that has been carried out or not. -/
structure Fault where
  text : String
  applied : Bool

/-! ### The client -/

inductive Result
  | succeeded
  | failed (message : String)
  | timedOut

/-- Where a call is: before its first request, before it sends its message, before the loop of
`_poll_extend_action_result` or `_poll_add_user_result`, at its test or at the request in it. -/
inductive CallPhase
  | start
  | send (initial : Option String)
  | startTimer (initial : Option String)
  | loop (initial : Option String) (startTime : ℚ)
  | poll (initial : Option String) (startTime : ℚ)
  | returned (result : Result)

/-- The test of a user's name. -/
def Setup.isValidName (name : String) : Bool :=
  let letters := name.toList.filter fun c => c ≠ '-' ∧ c ≠ '_'
  letters ≠ [] && letters.all v.isAlnum

/-- The beginning of `extend_reservation` and of `add_user`. -/
def Setup.begun (action : Action) (item : Except String (Option Record)) : CallPhase :=
  match action, item with
  | .extend _, .ok item => .send (item.map Record.expiresAt)
  | .extend _, .error text => .returned (.failed ("Error submitting extension request: " ++ text))
  | .addUser name, _ =>
    if v.isValidName name then .send none
    else .returned (.failed ("Invalid GitHub username: " ++ name))

/-- After `send_message`. -/
def sent (action : Action) (initial : Option String) : Option Fault → CallPhase
  | none => .startTimer initial
  | some fault =>
    match action with
    | .extend _ => .returned (.failed ("Error submitting extension request: " ++ fault.text))
    | .addUser name => .returned (.failed ("Error adding user " ++ name ++ ": " ++ fault.text))

/-- The test of the loop. -/
def tested (initial : Option String) (startTime now : ℚ) : CallPhase :=
  if now - startTime < 180 then .poll initial startTime else .returned .timedOut

/-- What a poll finds in the record, if anything. -/
def verdict (initial : Option String) (item : Record) : Action → Option Result
  | .extend _ =>
    if item.extensionError ≠ "" then some (.failed ("Extension failed: " ++ item.extensionError))
    else if item.expiresAt ≠ initial.getD item.expiresAt ∧ item.expiresAt ≠ "" then some .succeeded
    else none
  | .addUser name =>
    if item.addUserError ≠ "" then some (.failed item.addUserError)
    else if name ∈ item.secondaryUsers then some .succeeded
    else none

/-- After a poll. An extension is polled again after an error. -/
def polled (action : Action) (initial : Option String) (startTime : ℚ) :
    Except String (Option Record) → CallPhase
  | .ok none => .loop initial startTime
  | .ok (some item) =>
    match verdict initial item action with
    | some result => .returned result
    | none => .loop (some (initial.getD item.expiresAt)) startTime
  | .error text =>
    match action with
    | .extend _ => .loop initial startTime
    | .addUser _ => .returned (.failed ("Error polling add user status: " ++ text))

/-! ### The processor -/

/-- What an extension tells others. -/
inductive Errand
  | domainMapping (domainName expiresAt : String)
  | clearWarnings (podName : String)
  | statusHistory (id expiresAt : String)

/-- Where the processing of a message is: at one of its requests, or at its end, where the message
is done with or not. -/
inductive JobPhase (ι : Type)
  | idle
  | getItem (k : ι)
  | findByPrefix (k : ι)
  | extend (k : ι) (item : Record) (expiresAt : String) (hours : ℚ)
  | errands (rest : List Errand)
  | githubKeys (k : ι) (item : Record)
  | addKeys (k : ι) (item : Record) (keys : String)
  | readUsers (k : ι) (id : String)
  | writeUsers (k : ι) (id : String) (users : List String)
  | clearError (k : ι) (id : String)
  | writeError (k : ι) (id error : String) (done : Bool)
  | processed (done : Bool)

/-- The fields of a message are there. -/
def Request.isComplete (r : Request) : Bool :=
  match r.action with
  | .extend hours => r.reservationId ≠ "" && hours ≠ 0
  | .addUser name => r.reservationId ≠ "" && r.userId ≠ "" && name ≠ ""

/-- The beginning of `process_extend_reservation_action` and `process_add_user_action`. -/
def Setup.received (k : ι) : JobPhase ι :=
  let r := v.request k
  if !r.isComplete then .processed true
  else if isFullId r.reservationId then .getItem k
  else .findByPrefix k

/-- What is said of a user who cannot be added. -/
def addUserFailure (name : String) : String :=
  "Failed to add user " ++ name ++ " - check that the GitHub user has public SSH keys at " ++
    "github.com/" ++ name ++ ".keys"

/-- The reservation has been found. -/
def Setup.found (k : ι) (item : Record) : JobPhase ι :=
  match (v.request k).action with
  | .extend hours =>
    if !(["active", "preparing"].contains item.status) then
      .writeError k item.id ("Cannot extend reservation in status " ++ item.status) true
    else if item.expiresAt = "" then
      .writeError k item.id ("No expiration time found for reservation " ++ item.id) true
    else
      match newExpiry (v.stamp item.expiresAt)
        (if item.launchedAt = "" then none else some (v.stamp item.launchedAt))
        (.number hours) with
      | .error reason => .writeError k item.id reason true
      | .ok (new, hours) => .extend k item (v.isoformat new) hours
  | .addUser _ =>
    if item.userId ≠ (v.request k).userId then .processed true
    else if item.status ≠ "active" then .processed true
    else if item.podName = "" then .processed true
    else .githubKeys k item

/-- What an extension has to tell. -/
def errands (item : Record) (expiresAt : String) : List Errand :=
  (if item.domainName ≠ "" then [.domainMapping item.domainName expiresAt] else []) ++
    (if item.status = "active" ∧ item.podName ≠ "" then [.clearWarnings item.podName] else []) ++
    [.statusHistory item.id expiresAt]

/-- What the processor is answered: an item, which may be out of date, the items of an index, keys,
the end of the script in the pod, or an error. -/
inductive Reply
  | ok
  | item (item : Option Record)
  | items (items : List Record)
  | keys (keys : String)
  | executed (isComplete : Bool)
  | raises (fault : Fault)

/-- The request has been carried out. -/
def Reply.isApplied : Reply → Bool
  | raises fault => fault.applied
  | _ => true

/-- What has happened to the message of a call. -/
inductive Entry (ι : Type)
  | sent (k : ι)
  | received (k : ι)
  | applied (k : ι)
  | refused (k : ι)
  deriving DecidableEq

/-- How a job goes on, what it has written, and what has become of its message. -/
structure Progress (ι : Type) where
  phase : JobPhase ι
  write : Option (String × (Record → Record)) := none
  entry : Option (Entry ι) := none

/-- The writes of an extension. -/
def Record.extended (item : Record) (expiresAt : String) (durationHours : Option ℚ) : Record :=
  { item with
    expiresAt
    durationHours := durationHours.or item.durationHours
    extensionError := "" }

/-- `update_reservation_error`, and the error of an added user. -/
def Record.failed (item : Record) (error : String) : Action → Record
  | .extend _ => { item with extensionError := error }
  | .addUser _ => { item with addUserError := error }

/-- The name of the user that a message adds. -/
def Setup.username (k : ι) : String :=
  match (v.request k).action with
  | .addUser name => name
  | .extend _ => ""

/-- What a job does with an answer. The errors of `update_reservation_fields` are logged. -/
def Setup.goOn : JobPhase ι → Reply → Progress ι
  | .getItem k, .item (some item) =>
    if (v.request k).userId = "" ∨ item.userId = (v.request k).userId then
      ⟨v.found k item, none, none⟩
    else ⟨.findByPrefix k, none, none⟩
  | .getItem k, .item none => ⟨.findByPrefix k, none, none⟩
  | .getItem k, .raises _ => ⟨.findByPrefix k, none, none⟩
  | .findByPrefix k, .items [item] => ⟨v.found k item, none, none⟩
  | .findByPrefix _, .items _ => ⟨.processed true, none, none⟩
  | .findByPrefix _, .raises _ => ⟨.processed false, none, none⟩
  | .extend k item expiresAt hours, .ok =>
    ⟨.errands (errands item expiresAt),
      some (item.id, fun x => x.extended expiresAt (item.durationHours.map (· + hours))),
      some (.applied k)⟩
  | .extend k item expiresAt hours, .raises fault =>
    ⟨.writeError k item.id ("Database error during extension: " ++ fault.text) false,
      if fault.applied then
        some (item.id, fun x => x.extended expiresAt (item.durationHours.map (· + hours)))
      else none,
      if fault.applied then some (.applied k) else none⟩
  | .errands [], _ => ⟨.processed true, none, none⟩
  | .errands (_ :: rest), _ => ⟨.errands rest, none, none⟩
  | .githubKeys k item, .keys keys =>
    if keys = "" then ⟨.writeError k item.id (addUserFailure (v.username k)) true, none, none⟩
    else ⟨.addKeys k item keys, none, none⟩
  | .githubKeys k item, .raises _ =>
    ⟨.writeError k item.id (addUserFailure (v.username k)) true, none, none⟩
  | .addKeys k item _, .executed true => ⟨.readUsers k item.id, none, some (.applied k)⟩
  | .addKeys k item _, .executed false | .addKeys k item _, .raises _ =>
    ⟨.writeError k item.id (addUserFailure (v.username k)) true, none, none⟩
  | .readUsers k id, .item item =>
    let users := (item.map Record.secondaryUsers).getD []
    if v.username k ∈ users then ⟨.clearError k id, none, none⟩
    else ⟨.writeUsers k id (users ++ [v.username k]), none, none⟩
  | .readUsers k id, .raises _ => ⟨.clearError k id, none, none⟩
  | .writeUsers k id users, reply =>
    ⟨.clearError k id,
      if reply.isApplied then some (id, fun x => { x with secondaryUsers := users }) else none,
      none⟩
  | .clearError _ id, reply =>
    ⟨.processed true,
      if reply.isApplied then some (id, fun x => { x with addUserError := "" }) else none,
      none⟩
  | .writeError k id error done, reply =>
    ⟨.processed done,
      if reply.isApplied then some (id, fun x => x.failed error (v.request k).action) else none,
      if reply.isApplied then some (.refused k) else none⟩
  -- Such an answer does not occur.
  | phase, _ => ⟨phase, none, none⟩

/-- The message that a job may still decide about or write for. -/
def JobPhase.message : JobPhase ι → Option ι
  | getItem k | findByPrefix k | extend k _ _ _ | githubKeys k _ | addKeys k _ _ => some k
  | readUsers k _ | writeUsers k _ _ | clearError k _ | writeError k _ _ _ => some k
  | idle | errands _ | processed _ => none

/-! ### All of them -/

/-- The records, the calls, the jobs of the processor, and what has happened to the messages. -/
structure State (ι κ : Type) where
  records : String → Option Record
  now : ℚ
  calls : ι → CallPhase
  jobs : κ → JobPhase ι
  log : List (Entry ι)

/-- Nobody has asked for anything. -/
def start (ι κ : Type) (records : String → Option Record) (now : ℚ) : State ι κ :=
  ⟨records, now, fun _ => .start, fun _ => .idle, []⟩

/-- What can happen: the next step of a call, a message that is received, which may be received
again, the next step of a job, its end at any time, a write of somebody else, or that time passes.
-/
inductive Event (ι κ : Type)
  | call (k : ι) (fault : Option Fault)
  | receive (n : κ) (k : ι)
  | job (n : κ) (reply : Reply)
  | stop (n : κ)
  | write (id : String) (item : Option Record)
  | clock (now : ℚ)

/-- The record that the call is about. -/
def State.item (s : State ι κ) (k : ι) : Option Record := s.records (v.request k).reservationId

/-- A consistent read, unless there is an error. -/
def State.read (s : State ι κ) (k : ι) : Option Fault → Except String (Option Record)
  | none => .ok (s.item v k)
  | some fault => .error fault.text

/-- What the next poll of a call would find, if it has begun. -/
def CallPhase.initial? : CallPhase → Option (Option String)
  | send initial | startTimer initial | loop initial _ | poll initial _ => some initial
  | start | returned _ => none

def State.verdict (s : State ι κ) (k : ι) : Option Result :=
  (s.calls k).initial?.bind fun initial =>
    (s.item v k).bind fun item => ActionOutcomes.verdict initial item (v.request k).action

/-- The message has been sent. -/
def isSent : Option Fault → Bool
  | none => true
  | some fault => fault.applied

section Steps

variable [DecidableEq ι] [DecidableEq κ]

/-- The next step of a call. -/
def call (s : State ι κ) (k : ι) (fault : Option Fault) : State ι κ :=
  let action := (v.request k).action
  let move (phase : CallPhase) := Function.update s.calls k phase
  match s.calls k with
  | .start => { s with calls := move (v.begun action (s.read v k fault)) }
  | .send initial =>
    { s with
      calls := move (sent action initial fault)
      log := if isSent fault then .sent k :: s.log else s.log }
  | .startTimer initial => { s with calls := move (.loop initial s.now) }
  | .loop initial startTime => { s with calls := move (tested initial startTime s.now) }
  | .poll initial startTime =>
    { s with calls := move (polled action initial startTime (s.read v k fault)) }
  | .returned _ => s

/-- A job goes on. -/
def State.goOn (s : State ι κ) (n : κ) (progress : Progress ι) : State ι κ :=
  { s with
    records :=
      match progress.write with
      | some (id, f) => Function.update s.records id (some (f ((s.records id).getD (.fresh id))))
      | none => s.records
    jobs := Function.update s.jobs n progress.phase
    log := progress.entry.toList ++ s.log }

/-- What cannot happen changes nothing. -/
def step (s : State ι κ) : Event ι κ → State ι κ
  | .call k fault => call v s k fault
  | .receive n k =>
    match s.jobs n with
    | .idle =>
      if .sent k ∈ s.log then s.goOn n ⟨v.received k, none, some (.received k)⟩ else s
    | _ => s
  | .job n reply => s.goOn n (v.goOn (s.jobs n) reply)
  | .stop n => { s with jobs := Function.update s.jobs n (.processed false) }
  | .write id item => { s with records := Function.update s.records id item }
  | .clock now => { s with now }

/-- The call ends with the step. -/
def Reports (s : State ι κ) (e : Event ι κ) (k : ι) (result : Result) : Prop :=
  (∀ earlier, s.calls k ≠ .returned earlier) ∧ (step v s e).calls k = .returned result

/-- A call reports success for a message that has been applied, and failure for one that has been
refused and is not applied, nor will be. -/
structure Honest (s : State ι κ) (e : Event ι κ) : Prop where
  success : ∀ k, Reports v s e k .succeeded → .applied k ∈ s.log
  failure : ∀ k message, Reports v s e k (.failed message) →
    .refused k ∈ s.log ∧ .applied k ∉ s.log
  later : ∀ k message, s.calls k = .returned (.failed message) → .applied k ∉ (step v s e).log

/-- The step shows the next poll of the call nothing new. -/
def Quiet (s : State ι κ) (e : Event ι κ) (k : ι) : Prop :=
  (step v s e).verdict v k = none ∨ (step v s e).verdict v k = s.verdict v k

/-- When a call begins, its record shows no outcome, and none of its requests raises an error but
for the polls of an extension. A message is received once, and the update of an extension raises no
error when it has been carried out. While a call waits, others show it nothing new. -/
def Fits (s : State ι κ) : Event ι κ → Prop
  | .call k fault =>
    match s.calls k, (v.request k).action with
    | .start, action =>
      (∀ item, s.item v k = some item → verdict none item action = none) ∧
        match action with
        | .extend _ => fault = none
        | .addUser name => v.isValidName name = true
    | .send _, _ => fault = none
    | .poll _ _, .addUser _ => fault = none
    | _, _ => True
  | .receive n k => s.jobs n = .idle → .received k ∉ s.log
  | .job n reply =>
    (∀ k item expiresAt hours fault, s.jobs n = .extend k item expiresAt hours →
      reply = .raises fault → fault.applied = false) ∧
    ∀ k, (s.jobs n).message ≠ some k → Quiet v s (.job n reply) k
  | .write id item => ∀ k, Quiet v s (.write id item) k
  | _ => True

end Steps

/-! ### What a poll finds -/

variable {v} {s : State ι κ} {k : ι} {log : List (Entry ι)}

def Result.isFailed : Result → Bool
  | failed _ => true
  | _ => false

def Result.isSucceeded : Result → Bool
  | succeeded => true
  | _ => false

/-- A change of a record that makes no poll find such a result. -/
def Avoids (action : Action) (isBad : Result → Bool) (f : Record → Record) : Prop :=
  ∀ initial item, (verdict initial item action).all (fun r => !isBad r) = true →
    (verdict initial (f item) action).all (fun r => !isBad r) = true

theorem verdict_fresh (initial : Option String) (id : String) (action : Action) :
    verdict initial (.fresh id) action = none := by
  cases action <;> simp [verdict, Record.fresh]

/-- A call has found an expiry itself. -/
theorem verdict_expiresAt (item : Record) (initial : Option String) (action : Action) :
    verdict (some (initial.getD item.expiresAt)) item action = verdict initial item action := by
  cases action <;> simp [verdict]

theorem all_succeeded {p : Prop} [Decidable p] :
    (if p then some Result.succeeded else none).all (fun r => !r.isFailed) = true := by
  split <;> rfl

theorem avoids_extended (action : Action) (expiresAt : String) (durationHours : Option ℚ) :
    Avoids action Result.isFailed fun x => x.extended expiresAt durationHours := by
  intro initial item h
  cases action with
  | extend hours =>
    simp only [verdict, Record.extended, ne_eq, not_true_eq_false, if_false]
    exact all_succeeded
  | addUser name => exact h

theorem avoids_secondaryUsers (action : Action) (users : List String) :
    Avoids action Result.isFailed fun x => { x with secondaryUsers := users } := by
  intro initial item h
  cases action with
  | extend hours => exact h
  | addUser name =>
    simp only [verdict] at h ⊢
    split
    case isTrue herror =>
      rw [if_pos herror] at h
      exact h
    case isFalse => exact all_succeeded

theorem avoids_clearError (action : Action) :
    Avoids action Result.isFailed fun x => { x with addUserError := "" } := by
  intro initial item h
  cases action with
  | extend hours => exact h
  | addUser name =>
    simp only [verdict, ne_eq, not_true_eq_false, if_false]
    exact all_succeeded

theorem avoids_failed (action : Action) {error : String} (herror : error ≠ "") :
    Avoids action Result.isSucceeded fun x => x.failed error action := by
  intro initial item _
  cases action <;> simp [verdict, Record.failed, herror, Result.isSucceeded]

/-- A write that makes no poll find such a result does so in the state. -/
theorem State.avoids_write {isBad : Result → Bool} {f : Record → Record} {t : State ι κ}
    {id : String}
    (havoids : Avoids (v.request k).action isBad f) (hcalls : t.calls = s.calls)
    (hrecords : t.records =
      Function.update s.records id (some (f ((s.records id).getD (.fresh id)))))
    (h : (s.verdict v k).all (fun r => !isBad r) = true) :
    (t.verdict v k).all (fun r => !isBad r) = true := by
  rw [State.verdict, State.item, hcalls, hrecords]
  rw [State.verdict, State.item] at h
  cases hinitial : (s.calls k).initial? with
  | none => rfl
  | some initial =>
    rw [hinitial] at h
    by_cases hid : (v.request k).reservationId = id
    · subst hid
      simp only [Function.update_self, Option.bind_some] at h ⊢
      refine havoids initial _ ?_
      cases hitem : s.records (v.request k).reservationId with
      | none => rw [Option.getD_none, verdict_fresh]; rfl
      | some item =>
        rw [hitem] at h
        exact h
    · simpa only [Function.update_of_ne hid] using h

/-! ### What a job does -/

/-- What has become of its message when a job is in a phase. -/
def JobPhase.Standing (log : List (Entry ι)) : JobPhase ι → Prop
  | getItem k | findByPrefix k | extend k _ _ _ | githubKeys k _ | addKeys k _ _ =>
    .received k ∈ log ∧ .applied k ∉ log ∧ .refused k ∉ log
  | readUsers k _ | writeUsers k _ _ | clearError k _ => .received k ∈ log ∧ .applied k ∈ log
  | writeError k _ error _ => .received k ∈ log ∧ .applied k ∉ log ∧ error ≠ ""
  | idle | errands _ | processed _ => True

/-- Entries about other messages do not matter to a job. -/
theorem JobPhase.Standing.append {phase : JobPhase ι} (h : phase.Standing log)
    {entries : List (Entry ι)}
    (hentries : ∀ k, phase.message = some k → .applied k ∉ entries ∧ .refused k ∉ entries) :
    phase.Standing (entries ++ log) := by
  cases phase with
  | getItem k | findByPrefix k | extend k | githubKeys k | addKeys k =>
    obtain ⟨happlied, hrefused⟩ := hentries k rfl
    obtain ⟨hreceived, hnapplied, hnrefused⟩ := h
    simp [Standing, happlied, hrefused, hreceived, hnapplied, hnrefused]
  | readUsers k | writeUsers k | clearError k =>
    exact ⟨List.mem_append_right _ h.1, List.mem_append_right _ h.2⟩
  | writeError k id error done =>
    obtain ⟨hreceived, hnapplied, herror⟩ := h
    simp [Standing, (hentries k rfl).1, hreceived, hnapplied, herror]
  | idle | errands | processed => trivial

/-- The steps of a job for a message: it goes on, it applies the message, it writes something after
that, or it refuses the message. -/
inductive Does (action : Action) (log : List (Entry ι)) (k : ι) : Progress ι → Prop
  | moves {phase : JobPhase ι} : phase.message = some k ∨ phase.message = none →
      phase.Standing log → Does action log k ⟨phase, none, none⟩
  | applies {phase : JobPhase ι} {write : Option (String × (Record → Record))} :
      phase.message = some k ∨ phase.message = none → phase.Standing (.applied k :: log) →
      .refused k ∉ log →
      (∀ id f, write = some (id, f) → Avoids action Result.isFailed f) →
      Does action log k ⟨phase, write, some (.applied k)⟩
  | tidies {phase : JobPhase ι} {id : String} {f : Record → Record} :
      phase.message = some k ∨ phase.message = none → phase.Standing log → .applied k ∈ log →
      Avoids action Result.isFailed f → Does action log k ⟨phase, some (id, f), none⟩
  | refuses {done : Bool} {id : String} {f : Record → Record} : .applied k ∉ log →
      Avoids action Result.isSucceeded f →
      Does action log k ⟨.processed done, some (id, f), some (.refused k)⟩

/-- A message has been received, and nothing has been decided about it. -/
def IsOpen (log : List (Entry ι)) (k : ι) : Prop :=
  .received k ∈ log ∧ .applied k ∉ log ∧ .refused k ∉ log

/-- The reasons for which an extension is refused are texts. -/
theorem newExpiry_error_ne {expiresAt : Stamp} {launchedAt : Option Stamp} {hours : Lifecycle.Hours}
    {reason : String} (h : newExpiry expiresAt launchedAt hours = .error reason) : reason ≠ "" := by
  unfold newExpiry at h
  split at h
  · split at h
    · cases h
      decide
    · cases h
    · split at h
      · cases h
        decide
      · split at h
        · cases h
          decide
        · cases h
  · cases h
    decide
  · cases h
    decide

/-- A text with a beginning. -/
theorem append_ne {beginning text : String} (h : beginning ≠ "") : beginning ++ text ≠ "" := by
  simp [h]

theorem standing_found {item : Record} (h : IsOpen log k) : (v.found k item).Standing log := by
  obtain ⟨hreceived, happlied, hrefused⟩ := h
  rw [Setup.found]
  split
  · split
    · exact ⟨hreceived, happlied, append_ne (by decide)⟩
    · split
      · exact ⟨hreceived, happlied, append_ne (by decide)⟩
      · split
        · exact ⟨hreceived, happlied, newExpiry_error_ne ‹_›⟩
        · exact ⟨hreceived, happlied, hrefused⟩
  · split_ifs
    · trivial
    · trivial
    · trivial
    · exact ⟨hreceived, happlied, hrefused⟩

theorem message_found {item : Record} :
    (v.found k item).message = some k ∨ (v.found k item).message = none := by
  rw [Setup.found]
  split
  · split
    · exact .inl rfl
    · split
      · exact .inl rfl
      · split <;> exact .inl rfl
  · split_ifs
    · exact .inr rfl
    · exact .inr rfl
    · exact .inr rfl
    · exact .inl rfl

theorem addUserFailure_ne (name : String) : addUserFailure name ≠ "" := by
  exact append_ne (append_ne (append_ne (append_ne (append_ne (by decide)))))

/-- What a job does with the message that it has. -/
theorem does_goOn {phase : JobPhase ι} (reply : Reply) (hmessage : phase.message = some k)
    (hstanding : phase.Standing log)
    (hextend : ∀ k item expiresAt hours fault, phase = .extend k item expiresAt hours →
      reply = .raises fault → fault.applied = false) :
    Does (v.request k).action log k (v.goOn phase reply) := by
  cases phase with
  | idle | errands | processed => cases hmessage
  | getItem k' =>
    cases hmessage
    have hsearch : Does (v.request k).action log k ⟨.findByPrefix k, none, none⟩ :=
      .moves (.inl rfl) hstanding
    cases reply with
    | item item =>
      cases item with
      | none => exact hsearch
      | some item =>
        rw [Setup.goOn]
        split
        · exact .moves message_found (standing_found hstanding)
        · exact hsearch
    | raises fault => exact hsearch
    | ok | items | keys | executed => exact .moves (.inl rfl) hstanding
  | findByPrefix k' =>
    cases hmessage
    cases reply with
    | items items =>
      rcases items with _ | ⟨item, _ | ⟨item', items⟩⟩
      · exact .moves (.inr rfl) trivial
      · exact .moves message_found (standing_found hstanding)
      · exact .moves (.inr rfl) trivial
    | raises fault => exact .moves (.inr rfl) trivial
    | ok | item | keys | executed => exact .moves (.inl rfl) hstanding
  | extend k' item expiresAt hours =>
    cases hmessage
    cases reply with
    | ok =>
      refine .applies (.inr rfl) trivial hstanding.2.2 fun id f hwrite => ?_
      cases hwrite
      exact avoids_extended _ _ _
    | raises fault =>
      have happlied : fault.applied = false := hextend k item expiresAt hours fault rfl rfl
      rw [Setup.goOn, happlied]
      exact .moves (.inl rfl) ⟨hstanding.1, hstanding.2.1, append_ne (by decide)⟩
    | item | items | keys | executed => exact .moves (.inl rfl) hstanding
  | githubKeys k' item =>
    cases hmessage
    have hfailure : Does (v.request k).action log k
        ⟨.writeError k item.id (addUserFailure (v.username k)) true, none, none⟩ :=
      .moves (.inl rfl) ⟨hstanding.1, hstanding.2.1, addUserFailure_ne _⟩
    cases reply with
    | keys keys =>
      rw [Setup.goOn]
      split
      · exact hfailure
      · exact .moves (.inl rfl) hstanding
    | raises fault => exact hfailure
    | ok | item | items | executed => exact .moves (.inl rfl) hstanding
  | addKeys k' item keys =>
    cases hmessage
    have hfailure : Does (v.request k).action log k
        ⟨.writeError k item.id (addUserFailure (v.username k)) true, none, none⟩ :=
      .moves (.inl rfl) ⟨hstanding.1, hstanding.2.1, addUserFailure_ne _⟩
    cases reply with
    | executed isComplete =>
      cases isComplete with
      | true =>
        refine .applies (.inl rfl) ?_ hstanding.2.2 fun id f hwrite => ?_
        · exact ⟨List.mem_cons_of_mem _ hstanding.1, List.mem_cons_self⟩
        · cases hwrite
      | false => exact hfailure
    | raises fault => exact hfailure
    | ok | item | items | keys => exact .moves (.inl rfl) hstanding
  | readUsers k' id =>
    cases hmessage
    cases reply with
    | item item =>
      rw [Setup.goOn]
      split <;> exact .moves (.inl rfl) hstanding
    | raises fault => exact .moves (.inl rfl) hstanding
    | ok | items | keys | executed => exact .moves (.inl rfl) hstanding
  | writeUsers k' id users =>
    cases hmessage
    rw [Setup.goOn]
    split
    · exact .tidies (.inl rfl) hstanding hstanding.2 (avoids_secondaryUsers _ _)
    · exact .moves (.inl rfl) hstanding
  | clearError k' id =>
    cases hmessage
    rw [Setup.goOn]
    split
    · exact .tidies (.inr rfl) trivial hstanding.2 (avoids_clearError _)
    · exact .moves (.inr rfl) trivial
  | writeError k' id error done =>
    cases hmessage
    rw [Setup.goOn]
    split
    · exact .refuses hstanding.2.1 (avoids_failed _ hstanding.2.2)
    · exact .moves (.inr rfl) trivial

/-- A message is applied when its expiry is written, or when the keys of its user are there. -/
theorem phase_of_applied {phase : JobPhase ι} {reply : Reply}
    (h : (v.goOn phase reply).entry = some (.applied k)) :
    (∃ item expiresAt hours, phase = .extend k item expiresAt hours ∧
      (v.goOn phase reply).write =
        some (item.id, fun x => x.extended expiresAt (item.durationHours.map (· + hours)))) ∨
    ∃ item keys, phase = .addKeys k item keys ∧ reply = .executed true := by
  cases phase with
  | extend k' item expiresAt hours =>
    left
    cases reply with
    | ok =>
      cases h
      exact ⟨item, expiresAt, hours, rfl, rfl⟩
    | raises fault =>
      rw [Setup.goOn] at h ⊢
      split at h
      case isTrue happlied =>
        cases h
        exact ⟨item, expiresAt, hours, rfl, if_pos happlied⟩
      case isFalse => cases h
    | _ => cases h
  | addKeys k' item keys =>
    right
    cases reply with
    | executed isComplete =>
      cases isComplete with
      | true =>
        cases h
        exact ⟨item, keys, rfl, rfl⟩
      | false => cases h
    | _ => cases h
  | getItem k' =>
    rcases reply with _ | (_ | item) | _ | _ | _ | _
    case item.some =>
      rw [Setup.goOn] at h
      split at h <;> cases h
    all_goals cases h
  | findByPrefix k' =>
    rcases reply with _ | _ | (_ | ⟨item, _ | ⟨item', items⟩⟩) | _ | _ | _ <;> cases h
  | githubKeys k' item =>
    cases reply with
    | keys keys =>
      rw [Setup.goOn] at h
      split at h <;> cases h
    | _ => cases h
  | readUsers k' id =>
    cases reply with
    | item item =>
      rw [Setup.goOn] at h
      split at h <;> cases h
    | _ => cases h
  | errands rest => cases rest <;> cases h
  | writeError k' id error done =>
    rw [Setup.goOn] at h
    split at h <;> cases h
  | idle | processed | writeUsers | clearError => cases h

/-- A job that has no message to decide about writes nothing. -/
theorem goOn_of_message_eq_none {phase : JobPhase ι} (reply : Reply)
    (hmessage : phase.message = none) :
    ∃ phase' : JobPhase ι, v.goOn phase reply = ⟨phase', none, none⟩ ∧ phase'.message = none := by
  cases phase with
  | idle => exact ⟨.idle, by cases reply <;> rfl, rfl⟩
  | processed done => exact ⟨.processed done, by cases reply <;> rfl, rfl⟩
  | errands rest =>
    cases rest with
    | nil => exact ⟨.processed true, rfl, rfl⟩
    | cons errand rest => exact ⟨.errands rest, rfl, rfl⟩
  | _ => cases hmessage

/-! ### One step -/

variable (v) in
/-- What holds between the steps of runs that fit. -/
structure Inv (s : State ι κ) : Prop where
  succeeded : ∀ k, s.verdict v k = some .succeeded → .applied k ∈ s.log
  failed : ∀ k message, s.verdict v k = some (.failed message) →
    .refused k ∈ s.log ∧ .applied k ∉ s.log
  returned : ∀ k message, s.calls k = .returned (.failed message) →
    .refused k ∈ s.log ∧ .applied k ∉ s.log
  standing : ∀ n, (s.jobs n).Standing s.log
  alone : ∀ n n' k, (s.jobs n).message = some k → (s.jobs n').message = some k → n = n'
  received : ∀ k, .applied k ∈ s.log ∨ .refused k ∈ s.log → .received k ∈ s.log

theorem inv_start (records : String → Option Record) (now : ℚ) :
    Inv v (start ι κ records now) := by
  refine ⟨fun k h => ?_, fun k message h => ?_, fun k message h => ?_, fun n => trivial,
    fun n n' k h => ?_, fun k h => ?_⟩
  · cases h
  · cases h
  · cases h
  · cases h
  · rcases h with h | h <;> cases h

/-- A job works for a message that has been received. -/
theorem JobPhase.Standing.received {phase : JobPhase ι} (h : phase.Standing log)
    (hmessage : phase.message = some k) : .received k ∈ log := by
  cases phase <;> cases hmessage <;> exact h.1

/-- What a call finds when it goes on is what it would have found. -/
def Follows (v : Setup ι) (s : State ι κ) (k : ι) (phase : CallPhase) : Prop :=
  (∀ initial item result, phase.initial? = some initial → s.item v k = some item →
    ActionOutcomes.verdict initial item (v.request k).action = some result →
    s.verdict v k = some result) ∧
  (phase = .returned .succeeded → .applied k ∈ s.log) ∧
  ∀ message, phase = .returned (.failed message) → .refused k ∈ s.log ∧ .applied k ∉ s.log

theorem verdict_eq_some {initial : Option String} {item : Record} {result : Result}
    (hinitial : (s.calls k).initial? = some initial) (hitem : s.item v k = some item)
    (hresult : ActionOutcomes.verdict initial item (v.request k).action = some result) :
    s.verdict v k = some result := by
  rw [State.verdict, hinitial, Option.bind_some, hitem, Option.bind_some, hresult]

/-- A call goes on to poll with what it has. -/
theorem follows_of_initial? {phase : CallPhase} {initial : Option String}
    (hcall : (s.calls k).initial? = some initial) (hphase : phase.initial? = some initial) :
    Follows v s k phase := by
  refine ⟨fun initial' item result hinitial hitem hresult => ?_, ?_, ?_⟩
  · obtain rfl : initial = initial' := Option.some.inj (hphase.symm.trans hinitial)
    exact verdict_eq_some hcall hitem hresult
  · rintro rfl
    cases hphase
  · rintro message rfl
    cases hphase

section Jobs

variable [DecidableEq κ] {n : κ} {progress : Progress ι}

/-- A job goes on without a write. -/
theorem verdict_goOn (hwrite : progress.write = none) :
    (s.goOn n progress).verdict v = s.verdict v := by
  funext k
  rw [State.verdict, State.verdict, State.item, State.item, State.goOn, hwrite]

/-- A job goes on, with entries about its own message. -/
theorem Inv.goOn (h : Inv v s)
    (hmessage : ∀ l, progress.phase.message = some l →
      (s.jobs n).message = some l ∨ ∀ n', (s.jobs n').message ≠ some l)
    (hentries : ∀ l, .applied l ∈ progress.entry.toList ∨ .refused l ∈ progress.entry.toList →
      (s.jobs n).message = some l)
    (hstanding : progress.phase.Standing (progress.entry.toList ++ s.log))
    (hsucceeded : ∀ l, (s.goOn n progress).verdict v l = some .succeeded →
      .applied l ∈ progress.entry.toList ++ s.log)
    (hfailed : ∀ l message, (s.goOn n progress).verdict v l = some (.failed message) →
      .refused l ∈ progress.entry.toList ++ s.log ∧ .applied l ∉ progress.entry.toList ++ s.log)
    (hreturned : ∀ l, .applied l ∈ progress.entry.toList → .refused l ∉ s.log) :
    Inv v (s.goOn n progress) := by
  have hjob : (s.goOn n progress).jobs n = progress.phase := Function.update_self ..
  have hother {n' : κ} (hn : n' ≠ n) : (s.goOn n progress).jobs n' = s.jobs n' :=
    Function.update_of_ne hn ..
  have halone {n' : κ} {l : ι} (hn : n' ≠ n) (hl : (s.jobs n').message = some l) :
      progress.phase.message ≠ some l := by
    intro hphase
    rcases hmessage l hphase with hl' | hl'
    · exact hn (h.alone n' n l hl hl')
    · exact hl' n' hl
  refine ⟨hsucceeded, hfailed, fun l message hl => ?_, fun n' => ?_, fun n₁ n₂ l h₁ h₂ => ?_,
    fun l hl => ?_⟩
  · obtain ⟨hrefused, happlied⟩ := h.returned l message hl
    refine ⟨List.mem_append_right _ hrefused, fun hmem => ?_⟩
    rcases List.mem_append.mp hmem with hmem | hmem
    · exact hreturned l hmem hrefused
    · exact happlied hmem
  · by_cases hn : n' = n
    · rw [hn, hjob]
      exact hstanding
    · rw [hother hn]
      refine (h.standing n').append fun l hl => ⟨fun hmem => ?_, fun hmem => ?_⟩
      · exact hn (h.alone n' n l hl (hentries l (.inl hmem)))
      · exact hn (h.alone n' n l hl (hentries l (.inr hmem)))
  · by_cases hn₁ : n₁ = n
    · by_cases hn₂ : n₂ = n
      · rw [hn₁, hn₂]
      · rw [hother hn₂] at h₂
        rw [hn₁, hjob] at h₁
        exact absurd h₁ (halone hn₂ h₂)
    · rw [hother hn₁] at h₁
      by_cases hn₂ : n₂ = n
      · rw [hn₂, hjob] at h₂
        exact absurd h₂ (halone hn₁ h₁)
      · rw [hother hn₂] at h₂
        exact h.alone n₁ n₂ l h₁ h₂
  · have hreceived : .received l ∈ s.log := by
      by_cases hnew : .applied l ∈ progress.entry.toList ∨ .refused l ∈ progress.entry.toList
      · exact (h.standing n).received (hentries l hnew)
      · refine h.received l (hl.imp (fun hmem => ?_) fun hmem => ?_)
        · exact (List.mem_append.mp hmem).resolve_left fun hentry => hnew (.inl hentry)
        · exact (List.mem_append.mp hmem).resolve_left fun hentry => hnew (.inr hentry)
    exact List.mem_append_right _ hreceived

/-- A job that decides nothing and writes nothing goes on. -/
theorem Inv.moveJob (h : Inv v s) {phase : JobPhase ι}
    (hmessage : phase.message = (s.jobs n).message ∨ phase.message = none)
    (hstanding : phase.Standing s.log) : Inv v (s.goOn n ⟨phase, none, none⟩) := by
  refine h.goOn (fun l hl => ?_) (fun l hl => ?_) hstanding ?_ ?_ ?_
  · rcases hmessage with hsame | hnone
    · exact .inl (hsame ▸ hl)
    · rw [hnone] at hl
      cases hl
  · rcases hl with hl | hl <;> cases hl
  · rw [verdict_goOn rfl]
    exact h.succeeded
  · rw [verdict_goOn rfl]
    exact h.failed
  · intro l hl
    cases hl

/-- What a poll finds is no failure, unless it is one. -/
theorem all_not_isFailed {result : Option Result}
    (h : ∀ message, result ≠ some (.failed message)) :
    result.all (fun r => !r.isFailed) = true := by
  rcases result with _ | (_ | message | _)
  · rfl
  · rfl
  · exact absurd rfl (h message)
  · rfl

theorem all_not_isSucceeded {result : Option Result} (h : result ≠ some .succeeded) :
    result.all (fun r => !r.isSucceeded) = true := by
  rcases result with _ | (_ | message | _)
  · rfl
  · exact absurd rfl h
  · rfl
  · rfl

/-- A job goes on with its message, and shows the other calls nothing new. -/
theorem Inv.doJob (h : Inv v s) (hmessage : (s.jobs n).message = some k)
    (hdoes : Does (v.request k).action s.log k progress)
    (hquiet : ∀ l ≠ k, (s.goOn n progress).verdict v l = none ∨
      (s.goOn n progress).verdict v l = s.verdict v l) :
    Inv v (s.goOn n progress) := by
  have hothers {l : ι} {result : Result} (hl : l ≠ k)
      (hresult : (s.goOn n progress).verdict v l = some result) :
      s.verdict v l = some result := by
    rcases hquiet l hl with hnone | hsame
    · rw [hnone] at hresult
      cases hresult
    · exact hsame ▸ hresult
  have hphase {phase : JobPhase ι} (hp : phase.message = some k ∨ phase.message = none) (l : ι)
      (hl : phase.message = some l) :
      (s.jobs n).message = some l ∨ ∀ n', (s.jobs n').message ≠ some l := by
    rcases hp with hp | hp
    · exact .inl (hmessage.trans (hp.symm.trans hl))
    · rw [hp] at hl
      cases hl
  cases hdoes with
  | moves hp hstanding =>
    exact h.moveJob (hp.imp_left fun hp => hp.trans hmessage.symm) hstanding
  | @applies phase write hp hstanding hrefused hwrite =>
    have hnofailure (message : String) : s.verdict v k ≠ some (.failed message) :=
      fun hfailed => hrefused (h.failed k message hfailed).1
    refine h.goOn (hphase hp) ?_ hstanding ?_ ?_ ?_
    · intro l hl
      rcases hl with hl | hl
      · obtain rfl : l = k := by simpa using hl
        exact hmessage
      · simp at hl
    · intro l hl
      by_cases hlk : l = k
      · rw [hlk]
        exact List.mem_cons_self
      · exact List.mem_cons_of_mem _ (h.succeeded l (hothers hlk hl))
    · intro l message hl
      by_cases hlk : l = k
      · subst hlk
        cases write with
        | none =>
          rw [verdict_goOn rfl] at hl
          exact absurd hl (hnofailure message)
        | some write =>
          have hall := State.avoids_write (hwrite write.1 write.2 rfl) (s := s)
            (t := s.goOn n ⟨phase, some write, some (.applied l)⟩) rfl rfl
            (all_not_isFailed hnofailure)
          rw [hl] at hall
          cases hall
      · obtain ⟨hmem, hnmem⟩ := h.failed l message (hothers hlk hl)
        refine ⟨List.mem_cons_of_mem _ hmem, fun hcons => ?_⟩
        rcases List.mem_cons.mp hcons with heq | hcons
        · exact hlk (Entry.applied.inj heq)
        · exact hnmem hcons
    · intro l hl
      obtain rfl : l = k := by simpa using hl
      exact hrefused
  | @tidies phase id f hp hstanding happlied havoids =>
    have hnofailure (message : String) : s.verdict v k ≠ some (.failed message) :=
      fun hfailed => (h.failed k message hfailed).2 happlied
    refine h.goOn (hphase hp) ?_ hstanding ?_ ?_ ?_
    · intro l hl
      rcases hl with hl | hl <;> cases hl
    · intro l hl
      by_cases hlk : l = k
      · rw [hlk]
        exact happlied
      · exact h.succeeded l (hothers hlk hl)
    · intro l message hl
      by_cases hlk : l = k
      · subst hlk
        have hall := State.avoids_write havoids (s := s)
          (t := s.goOn n ⟨phase, some (id, f), none⟩) rfl rfl (all_not_isFailed hnofailure)
        rw [hl] at hall
        cases hall
      · exact h.failed l message (hothers hlk hl)
    · intro l hl
      cases hl
  | @refuses done id f happlied havoids =>
    have hnosuccess : s.verdict v k ≠ some .succeeded := fun hs => happlied (h.succeeded k hs)
    refine h.goOn (hphase (.inr rfl)) ?_ trivial ?_ ?_ ?_
    · intro l hl
      rcases hl with hl | hl
      · simp at hl
      · obtain rfl : l = k := by simpa using hl
        exact hmessage
    · intro l hl
      by_cases hlk : l = k
      · subst hlk
        have hall := State.avoids_write havoids (s := s)
          (t := s.goOn n ⟨.processed done, some (id, f), some (.refused l)⟩) rfl rfl
          (all_not_isSucceeded hnosuccess)
        rw [hl] at hall
        cases hall
      · exact List.mem_cons_of_mem _ (h.succeeded l (hothers hlk hl))
    · intro l message hl
      have hmem : .refused l ∈ [.refused k] ++ s.log ∧ .applied l ∉ s.log := by
        by_cases hlk : l = k
        · rw [hlk]
          exact ⟨List.mem_cons_self, happlied⟩
        · obtain ⟨hrefused, hnapplied⟩ := h.failed l message (hothers hlk hl)
          exact ⟨List.mem_cons_of_mem _ hrefused, hnapplied⟩
      refine ⟨hmem.1, fun hcons => ?_⟩
      rcases List.mem_cons.mp hcons with heq | hcons
      · cases heq
      · exact hmem.2 hcons
    · intro l hl
      simp at hl

end Jobs

variable [DecidableEq ι]

/-- A call goes on to such a phase. -/
theorem Inv.moveCall (h : Inv v s) {phase : CallPhase} {log' : List (Entry ι)}
    (hphase : Follows v s k phase) (hlog : log' = s.log ∨ log' = .sent k :: s.log) :
    Inv v { s with calls := Function.update s.calls k phase, log := log' } := by
  obtain ⟨hverdict, -, hfailed⟩ := hphase
  have hmem {entry : Entry ι} (hentry : ∀ l, entry ≠ .sent l) : entry ∈ log' ↔ entry ∈ s.log := by
    rcases hlog with rfl | rfl
    · exact Iff.rfl
    · exact List.mem_cons.trans (or_iff_right (hentry k))
  have happlied {l : ι} : .applied l ∈ log' ↔ .applied l ∈ s.log := hmem fun _ => by simp
  have hrefused {l : ι} : .refused l ∈ log' ↔ .refused l ∈ s.log := hmem fun _ => by simp
  have hreceived {l : ι} : .received l ∈ log' ↔ .received l ∈ s.log :=
    hmem fun _ => by simp
  have hsame {l : ι} {result : Result}
      (hl : State.verdict v { s with calls := Function.update s.calls k phase, log := log' } l =
        some result) : s.verdict v l = some result := by
    by_cases hlk : l = k
    · subst hlk
      simp only [State.verdict, Function.update_self, Option.bind_eq_some_iff] at hl
      obtain ⟨initial, hinitial, item, hitem, hresult⟩ := hl
      exact hverdict initial item result hinitial hitem hresult
    · simpa only [State.verdict, State.item, Function.update_of_ne hlk] using hl
  refine ⟨fun l hl => happlied.mpr (h.succeeded l (hsame hl)), fun l message hl => ?_,
    fun l message hl => ?_, fun n => ?_, h.alone, fun l hl => ?_⟩
  · obtain ⟨hr, ha⟩ := h.failed l message (hsame hl)
    exact ⟨hrefused.mpr hr, fun hmem => ha (happlied.mp hmem)⟩
  · obtain ⟨hr, ha⟩ : .refused l ∈ s.log ∧ .applied l ∉ s.log := by
      by_cases hlk : l = k
      · subst hlk
        exact hfailed message (by simpa only [Function.update_self] using hl)
      · exact h.returned l message (by simpa only [Function.update_of_ne hlk] using hl)
    exact ⟨hrefused.mpr hr, fun hmem => ha (happlied.mp hmem)⟩
  · rcases hlog with rfl | rfl
    · exact h.standing n
    · have hsent (l : ι) : .applied l ∉ [Entry.sent k] ∧ .refused l ∉ [Entry.sent k] := by simp
      exact (h.standing n).append fun l _ => hsent l
  · exact hreceived.mpr (h.received l (hl.imp happlied.mp hrefused.mp))

variable [DecidableEq κ] {n : κ} {e : Event ι κ} {fault : Option Fault}

/-- Before its first request a call has nothing to find. -/
theorem follows_begun (hphase : s.calls k = .start) (hfits : Fits v s (.call k fault)) :
    Follows v s k (v.begun (v.request k).action (s.read v k fault)) := by
  simp only [Fits, hphase] at hfits
  obtain ⟨hnone, haction⟩ := hfits
  cases hrequest : (v.request k).action with
  | extend hours =>
    rw [hrequest] at haction hnone
    subst haction
    refine ⟨fun initial item result hinitial hitem hresult => ?_, ?_, ?_⟩
    · rw [State.read, hitem] at hinitial
      cases hinitial
      have hnothing : ActionOutcomes.verdict (some item.expiresAt) item (.extend hours) = none :=
        (verdict_expiresAt item none _).trans (hnone item hitem)
      rw [hrequest] at hresult
      exact absurd (hnothing.symm.trans hresult) (by simp)
    · intro h
      cases h
    · intro message h
      cases h
  | addUser name =>
    rw [hrequest] at haction hnone
    have hbegun : v.begun (.addUser name) (s.read v k fault) = .send none := by
      rw [Setup.begun, haction, if_pos rfl]
    rw [hbegun]
    refine ⟨fun initial item result hinitial hitem hresult => ?_, ?_, ?_⟩
    · cases hinitial
      rw [hrequest, hnone item hitem] at hresult
      cases hresult
    · intro h
      cases h
    · intro message h
      cases h

/-- A poll finds what is there. -/
theorem follows_polled (h : Inv v s) {initial : Option String} {startTime : ℚ}
    (hphase : s.calls k = .poll initial startTime) (hfits : Fits v s (.call k fault)) :
    Follows v s k (polled (v.request k).action initial startTime (s.read v k fault)) := by
  have hinitial : (s.calls k).initial? = some initial := by rw [hphase]; rfl
  cases fault with
  | none =>
    rw [State.read]
    cases hitem : s.item v k with
    | none => exact follows_of_initial? hinitial rfl
    | some item =>
      rw [polled]
      split
      case h_1 result hresult =>
        have hverdict := verdict_eq_some hinitial hitem hresult
        refine ⟨fun _ _ _ hnone => ?_, ?_, ?_⟩
        · cases hnone
        · intro hreturned
          cases hreturned
          exact h.succeeded k hverdict
        · intro message hreturned
          cases hreturned
          exact h.failed k message hverdict
      case h_2 hresult =>
        refine ⟨fun initial' item' result hinitial' hitem' hresult' => ?_, ?_, ?_⟩
        · cases hinitial'
          obtain rfl : item = item' := Option.some.inj (hitem.symm.trans hitem')
          rw [verdict_expiresAt, hresult] at hresult'
          cases hresult'
        · intro hreturned
          cases hreturned
        · intro message hreturned
          cases hreturned
  | some fault =>
    cases hrequest : (v.request k).action with
    | extend hours => exact follows_of_initial? hinitial rfl
    | addUser name =>
      simp only [Fits, hphase, hrequest] at hfits
      cases hfits

/-- Where a call goes on to when the step fits. -/
theorem follows_call (h : Inv v s) (hfits : Fits v s (.call k fault))
    (hrunning : ∀ earlier, s.calls k ≠ .returned earlier) :
    ∃ phase log', Follows v s k phase ∧ (log' = s.log ∨ log' = .sent k :: s.log) ∧
      call v s k fault = { s with calls := Function.update s.calls k phase, log := log' } := by
  cases hphase : s.calls k with
  | start =>
    refine ⟨_, s.log, follows_begun hphase hfits, .inl rfl, ?_⟩
    simp only [call, hphase]
  | send initial =>
    simp only [Fits, hphase] at hfits
    subst hfits
    refine ⟨.startTimer initial, .sent k :: s.log, ?_, .inr rfl, ?_⟩
    · exact follows_of_initial? (by rw [hphase]; rfl) rfl
    · simp only [call, hphase]
      rfl
  | startTimer initial =>
    refine ⟨.loop initial s.now, s.log, ?_, .inl rfl, ?_⟩
    · exact follows_of_initial? (by rw [hphase]; rfl) rfl
    · simp only [call, hphase]
  | loop initial startTime =>
    refine ⟨tested initial startTime s.now, s.log, ?_, .inl rfl, ?_⟩
    · rw [tested]
      split
      · exact follows_of_initial? (by rw [hphase]; rfl) rfl
      · refine ⟨fun _ _ _ hnone => ?_, ?_, ?_⟩
        · cases hnone
        · intro hreturned
          cases hreturned
        · intro message hreturned
          cases hreturned
    · simp only [call, hphase]
  | poll initial startTime =>
    refine ⟨_, s.log, follows_polled h hphase hfits, .inl rfl, ?_⟩
    simp only [call, hphase]
  | returned result => exact absurd hphase (hrunning result)

theorem Inv.call (h : Inv v s) (hfits : Fits v s (.call k fault)) : Inv v (call v s k fault) := by
  by_cases hrunning : ∀ earlier, s.calls k ≠ .returned earlier
  · obtain ⟨phase, log', hphase, hlog, hcall⟩ := follows_call h hfits hrunning
    rw [hcall]
    exact h.moveCall hphase hlog
  · obtain ⟨earlier, hearlier⟩ := not_forall_not.mp hrunning
    have hsame : ActionOutcomes.call v s k fault = s := by simp only [ActionOutcomes.call, hearlier]
    rw [hsame]
    exact h

theorem Inv.receive (h : Inv v s) (hfits : Fits v s (.receive n k)) :
    Inv v (step v s (.receive n k)) := by
  cases hjob : s.jobs n with
  | idle =>
    rw [step, hjob]
    dsimp only
    split
    case isTrue =>
      have hnew : .received k ∉ s.log := hfits hjob
      have happlied : .applied k ∉ s.log := fun hmem => hnew (h.received k (.inl hmem))
      have hrefused : .refused k ∉ s.log := fun hmem => hnew (h.received k (.inr hmem))
      have hopen : .received k ∈ [.received k] ++ s.log ∧ .applied k ∉ [.received k] ++ s.log ∧
          .refused k ∉ [.received k] ++ s.log := by
        simp [happlied, hrefused]
      refine h.goOn (fun l hl => .inr fun n' hn' => ?_) (fun l hl => ?_) ?_ (fun l hl => ?_)
        (fun l message hl => ?_) (fun l hl => ?_)
      · obtain rfl : l = k := by
          rw [Setup.received] at hl
          split_ifs at hl <;> cases hl <;> rfl
        exact hnew ((h.standing n').received hn')
      · simp at hl
      · rw [Setup.received]
        split_ifs
        · trivial
        · exact hopen
        · exact hopen
      · rw [verdict_goOn rfl] at hl
        exact List.mem_cons_of_mem _ (h.succeeded l hl)
      · rw [verdict_goOn rfl] at hl
        obtain ⟨hr, ha⟩ := h.failed l message hl
        exact ⟨List.mem_cons_of_mem _ hr, by simpa using ha⟩
      · simp at hl
    case isFalse => exact h
  | _ =>
    rw [step, hjob]
    exact h

/-- A step that fits keeps the invariant. -/
theorem Inv.step (h : Inv v s) (hfits : Fits v s e) : Inv v (step v s e) := by
  cases e with
  | call k fault => exact h.call hfits
  | receive n k => exact h.receive hfits
  | job n reply =>
    obtain ⟨hextend, hquiet⟩ := hfits
    rw [ActionOutcomes.step]
    cases hmessage : (s.jobs n).message with
    | none =>
      obtain ⟨phase, hphase, hnone⟩ := goOn_of_message_eq_none (v := v) reply hmessage
      rw [hphase]
      refine h.moveJob (.inr hnone) ?_
      cases phase <;> trivial
    | some k =>
      refine h.doJob hmessage (does_goOn reply hmessage (h.standing n) ?_) fun l hl => ?_
      · intro k item expiresAt hours fault hphase hreply
        exact hextend k item expiresAt hours fault hphase hreply
      · exact hquiet l fun hsame => hl (Option.some.inj (hsame.symm.trans hmessage))
  | stop n =>
    have hstopped : (JobPhase.processed false : JobPhase ι).message = none := rfl
    exact h.moveJob (.inr hstopped) trivial
  | write id item =>
    have hsame {k : ι} {result : Result}
        (hk : (ActionOutcomes.step v s (.write id item)).verdict v k = some result) :
        s.verdict v k = some result := by
      rcases hfits k with hnone | hsame
      · rw [hnone] at hk
        cases hk
      · exact hsame ▸ hk
    exact ⟨fun k hk => h.succeeded k (hsame hk), fun k message hk => h.failed k message (hsame hk),
      h.returned, h.standing, h.alone, h.received⟩
  | clock now => exact ⟨h.succeeded, h.failed, h.returned, h.standing, h.alone, h.received⟩

/-- Only the call whose step it is goes on. -/
theorem step_calls (h : ∀ fault, e ≠ .call k fault) : (step v s e).calls k = s.calls k := by
  cases e with
  | call l fault =>
    have hl : k ≠ l := fun hl => h fault (by rw [hl])
    rw [ActionOutcomes.step, ActionOutcomes.call]
    split <;> simp only [Function.update_of_ne hl]
  | receive n l =>
    rw [ActionOutcomes.step]
    split
    · split <;> rfl
    · rfl
  | job n reply => rfl
  | stop n => rfl
  | write id item => rfl
  | clock now => rfl

theorem Reports.eq_call {result : Result} (h : Reports v s e k result) :
    ∃ fault, e = .call k fault := by
  obtain ⟨hrunning, hreturned⟩ := h
  by_contra hother
  rw [step_calls (not_exists.mp hother)] at hreturned
  exact hrunning result hreturned

/-- A call that has returned does nothing more. -/
theorem step_calls_of_returned {result : Result} (h : s.calls k = .returned result) :
    (step v s e).calls k = .returned result := by
  by_cases hcall : ∃ fault, e = .call k fault
  · obtain ⟨fault, rfl⟩ := hcall
    simp only [ActionOutcomes.step, ActionOutcomes.call, h]
  · rw [step_calls (not_exists.mp hcall), h]

/-- A step that fits is honest. -/
theorem Inv.honest (h : Inv v s) (hfits : Fits v s e) : Honest v s e := by
  have hfollows {k : ι} {result : Result} (hreports : Reports v s e k result) :
      Follows v s k (.returned result) := by
    obtain ⟨fault, rfl⟩ := hreports.eq_call
    obtain ⟨hrunning, hreturned⟩ := hreports
    obtain ⟨phase, log', hphase, -, hcall⟩ := follows_call h hfits hrunning
    rw [ActionOutcomes.step, hcall] at hreturned
    obtain rfl : phase = .returned result := by simpa only [Function.update_self] using hreturned
    exact hphase
  refine ⟨fun k hreports => ?_, fun k message hreports => ?_, fun k message hreturned => ?_⟩
  · exact (hfollows hreports).2.1 rfl
  · exact (hfollows hreports).2.2 message rfl
  · exact ((h.step hfits).returned k message (step_calls_of_returned hreturned)).2

/-! ### Runs -/

/-- Where every step fits, each call reports the outcome of its own message, in every order of the
steps of calls, jobs and others. -/
theorem honest_along (v : Setup ι) (records : String → Option Record) (now : ℚ)
    (run : List (Event ι κ)) (h : Runs.Along (step v) (Fits v) (start ι κ records now) run) :
    Runs.Along (step v) (Honest v) (start ι κ records now) run :=
  Runs.Along.of_invariant (fun _ _ hinv hfits => hinv.step hfits)
    (fun _ _ hinv hfits => hinv.honest hfits) (inv_start records now) h

/-- A reservation that is active, and one hour more for it. -/
def activeRecord (extensionError : String) : Record where
  id := "01234567-89ab-cdef-0123-456789abcdef"
  userId := "ann"
  status := "active"
  expiresAt := "1970-01-01T00:00:00"
  launchedAt := ""
  durationHours := some 2
  podName := "gpu-dev-01234567"
  domainName := ""
  extensionError := extensionError
  addUserError := ""
  secondaryUsers := []

def oneHour : Setup Unit where
  time? _ := some 0
  isoformat _ := "1970-01-01T01:00:00"
  isAlnum _ := true
  request _ := ⟨"01234567-89ab-cdef-0123-456789abcdef", "ann", .extend 1⟩

/-- The message is sent, received and applied, and the next poll finds the new expiry. -/
def extendedOnce : List (Event Unit Unit) :=
  [.call () none, .call () none, .receive () (), .job () (.item (some (activeRecord ""))),
    .job () .ok, .call () none, .call () none, .call () none]

theorem honest_along_extendedOnce :
    Runs.Along (step oneHour) (Honest oneHour)
      (start Unit Unit (fun _ => some (activeRecord "")) 0) extendedOnce := by
  refine honest_along oneHour _ 0 extendedOnce ?_
  have hexpiry : newExpiry (.moment 0) none (.number 1) = .ok (3600, 1) := by
    norm_num [newExpiry, Stamp.time?, Lifecycle.Hours.float?, Lifecycle.plusHours?]
  have hfull : isFullId "01234567-89ab-cdef-0123-456789abcdef" = true := by decide
  have hnow : (0 : ℚ) < 180 := by decide
  simp [extendedOnce, Runs.Along, Fits, step, call, start, State.goOn, oneHour, activeRecord,
    Setup.begun, Setup.received, Setup.goOn, Setup.found, Setup.stamp, State.read, State.item, sent,
    isSent, tested, verdict, Request.isComplete, JobPhase.message, hexpiry, hfull, hnow]

/-- The error of an earlier attempt. -/
def earlierError : String := "Cannot extend reservation in status queued"

/-- It is reported for a message that nobody has received. -/
theorem not_honest_stale : ¬ ∀ run : List (Event Unit Unit),
    Runs.Along (step oneHour) (Honest oneHour)
      (start Unit Unit (fun _ => some (activeRecord earlierError)) 0) run := by
  intro h
  obtain ⟨-, -, -, -, hlast, -⟩ :=
    h [.call () none, .call () none, .call () none, .call () none, .call () none]
  have hnow : (0 : ℚ) < 180 := by decide
  have hfailed := hlast.failure () ("Extension failed: " ++ earlierError) (by
    simp [Reports, step, call, start, oneHour, activeRecord, earlierError, Setup.begun, State.read,
      State.item, sent, tested, polled, verdict, hnow])
  simp [step, call, start, oneHour, activeRecord, Setup.begun, State.read, State.item, sent, isSent,
    tested, hnow] at hfailed

end CiInfra.GpuDev.ActionOutcomes
