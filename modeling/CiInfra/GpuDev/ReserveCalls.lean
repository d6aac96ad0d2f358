import CiInfra.GpuDev.DirectClaims
import CiInfra.Lib.History
import CiInfra.Lib.Program

/-!
# Calls to reserve

The SDK and the command line ask the Function URL for a pod of the warm pool first and send a
message to the queue if they get none. The message carries an id of its own. The Lambda serves the
request whether or not anybody waits for the answer, and it serves the message as often as it is
delivered.
-/

namespace CiInfra.GpuDev

open Interaction Fallible

/-! ### Clients and servers -/

/-- What a client and its servers do beside the calls that the Lambdas make. -/
inductive Remote
  /-- Who the user is, here and on GitHub. -/
  | authenticate
  /-- `_get_direct_url`; an empty one is `none`. -/
  | directUrl
  /-- `uuid.uuid4()`. -/
  | newId
  /-- `datetime.utcnow().isoformat()`. -/
  | utcnow
  /-- A request to the Function URL is sent. -/
  | post (payload : Attributes)
  /-- The answer to the request, if it comes in time and is one. -/
  | await (reservationId : String)
  | queueUrl
  | sendMessage (message : Attributes)
  | waitUntilReady (reservationId : String)
  /-- A request that has arrived, if there is one, is handed to the Lambda. -/
  | accept
  | respond (response : ClaimResponse)
  /-- A message of the queue, if there is one, is handed to the Lambda. -/
  | receive

def Remote.Res : Remote → Type
  | authenticate => Except Failure (String × String)
  | directUrl => Option String
  | newId => String
  | utcnow => String
  | post _ => Unit
  | await _ => Option ClaimResponse
  | queueUrl => Except Failure Unit
  | sendMessage _ => Except Failure Unit
  | waitUntilReady _ => Except Failure Unit
  | accept => Option Attributes
  | respond _ => Unit
  | receive => Option Attributes

/-- The world of the Lambdas, what is on its way to them and from them, and the ids that a call has
drawn. -/
structure Site where
  world : World
  requests : List Attributes
  responses : List ClaimResponse
  queue : List Attributes
  drawn : List String

namespace Site

/-- A request that has arrived is taken. -/
def Takes (s : Site) (request : Option Attributes) (s' : Site) : Prop :=
  match request with
  | none => s' = s
  | some payload => ∃ sooner later, s.requests = sooner ++ payload :: later ∧
    s' = { s with requests := sooner ++ later }

/-- A message is sent. What a send that raises has sent is not known. -/
def Sends (s : Site) (message : Attributes) (r : Except Failure Unit) (s' : Site) : Prop :=
  s' = { s with queue := message :: s.queue } ∨ s' = s ∧ r ≠ .ok ()

end Site

/-- How the environment answers. Ids are fresh. A request may get lost, and so may its answer, at
any time. A message stays in the queue when it is delivered. -/
def Remote.Answers : (op : Remote) → Site → op.Res → Site → Prop
  | newId, s, id, s' =>
    id ∉ s.drawn ∧ id ≠ "" ∧ isReservationKey id = true ∧ s' = { s with drawn := id :: s.drawn }
  | post payload, s, _, s' => s' = s ∨ s' = { s with requests := payload :: s.requests }
  | await _, s, r, s' => s' = s ∧ ∀ response, r = some response → response ∈ s.responses
  | sendMessage message, s, r, s' => s.Sends message r s'
  | accept, s, request, s' => s.Takes request s'
  | respond response, s, _, s' => s' = { s with responses := response :: s.responses }
  | receive, s, r, s' => s' = s ∧ ∀ message, r = some message → message ∈ s.queue
  | authenticate, s, _, s' => s' = s
  | directUrl, s, _, s' => s' = s
  | utcnow, s, _, s' => s' = s
  | queueUrl, s, _, s' => s' = s
  | waitUntilReady _, s, _, s' => s' = s

abbrev SiteOp := Op ⊕ Remote

abbrev SiteRes : SiteOp → Type := Program.EitherRes Op.Res Remote.Res

/-- The Lambdas call what they call, and an item that they are shown is the one they ask for. -/
def SiteAnswers : (op : SiteOp) → Site → SiteRes op → Site → Prop
  | .inl op, s, r, s' =>
    op.Answers s.world r s'.world ∧ ShowsKey ⟨op, r⟩ ∧ s' = { s with world := s'.world }
  | .inr op, s, r, s' => op.Answers s r s'

/-! ### Asking the Function URL -/

/-- Programs of clients. -/
abbrev Client := Fallible SiteOp SiteRes Failure

/-- A call beside those of the Lambdas, with what its answer gives or raises. -/
def remote {α : Type} (op : Remote) (answer : op.Res → Except Failure α) : Client α :=
  request (.inr op) answer

/-- Who the user is, here and on GitHub. -/
def authenticate : Client (String × String) := remote .authenticate id

/-- `_get_direct_url`; an empty one is `none`. -/
def directUrl : Client (Option String) := remote .directUrl .ok

/-- `uuid.uuid4()`. -/
def newId : Client String := remote .newId .ok

/-- `datetime.utcnow().isoformat()`. -/
def utcnow : Client String := remote .utcnow .ok

/-- `_signed_post`. Whatever goes wrong, it gives `none`. -/
def signedPost (payload : Attributes) : Client (Option ClaimResponse) := do
  remote (.post payload) .ok
  remote (.await payload.key) .ok

/-- `get_queue_url`. -/
def queueUrl : Client Unit := remote .queueUrl id

/-- `sqs.send_message`. -/
def sendMessage (message : Attributes) : Client Unit := remote (.sendMessage message) id

/-- `wait_until_ready`. -/
def waitUntilReady (reservationId : String) : Client Unit :=
  remote (.waitUntilReady reservationId) id

/-- An entry that is written only where there is something to write. -/
def optionalText (name : String) (s : Option String) : List (String × Value) :=
  ((s.filter (· ≠ "")).map fun s => (name, Value.text s)).toList

/-- A text that is not empty is given. -/
def isGiven (s : Option String) : Bool := s.any (· ≠ "")

/-- What `claim_direct` is told. -/
structure ClaimParams where
  version : String
  userId : String
  githubUser : String
  gpuCount : ℤ
  gpuType : String
  durationHours : ℚ
  name : Option String
  ref : Option String

/-- The payload of `claim_direct`. -/
def ClaimParams.payload (params : ClaimParams) (reservationId createdAt : String) : Attributes :=
  .ofList ([("reservation_id", .text reservationId),
    ("user_id", .text params.userId),
    ("gpu_count", .number params.gpuCount),
    ("gpu_type", .text params.gpuType),
    ("duration_hours", .number params.durationHours),
    ("name", textOrNull params.name),
    ("created_at", .text createdAt),
    ("status", .text "pending"),
    ("github_user", .text params.githubUser),
    ("version", .text params.version),
    ("source_command", .text "reserve")] ++ optionalText "ref" params.ref)

/-- `claim_direct`. -/
def claimDirect (params : ClaimParams) : Client (Option Attributes) := do
  let url ← directUrl
  match url with
  | none => return none
  | some _ => do
    let reservationId ← newId
    let createdAt ← utcnow
    let result ← signedPost (params.payload reservationId createdAt)
    match result with
    | some (.claimed reservation) => return some reservation
    | some (.notClaimed _) => return none
    | none => return none

/-- `create_reservation`: send the message for a fresh id. -/
def Client.createReservation
    (message : (reservationId createdAt : String) → Attributes) : Client String := do
  let reservationId ← newId
  let createdAt ← utcnow
  queueUrl
  sendMessage (message reservationId createdAt)
  return reservationId

/-- Claim a pod directly where that is done. -/
def claimIf (direct : Bool) (params : ClaimParams) : Client (Option Attributes) :=
  if direct then claimDirect params else return none

/-- Claim a pod directly, where that is done, and do otherwise if there is none. -/
def claimFirst (direct : Bool) (params : ClaimParams) (otherwise : Client (Option String)) :
    Client (Option String) := do
  let claimed ← claimIf direct params
  match claimed with
  | some reservation => return some reservation.key
  | none => otherwise

/-- A message that asks for a reservation of one node. -/
def AsksForOneNode (message : Attributes) : Prop :=
  isPlainRequest message = true ∧ message.truthy "is_multinode" = false

/-! ### The SDK -/

/-- `GPU_MAX_COUNT`. -/
def gpuMaxCount : List (String × ℤ) :=
  [("h100", 8), ("h200", 8), ("b200", 8), ("b300", 8), ("a100", 8), ("t4", 4), ("l4", 4),
    ("a10g", 4), ("rtxpro6000", 4), ("h100-mig-1g", 1), ("h100-mig-2g", 1), ("h100-mig-3g", 1),
    ("b200-mig-1g", 1), ("b200-mig-2g", 1), ("b200-mig-3g", 1), ("cpu-arm", 0), ("cpu-x86", 0)]

/-- A call of `reserve` in the SDK. -/
structure SdkReservation where
  version : String
  gpuType : String
  gpuCount : ℤ
  hours : ℚ
  name : Option String
  jupyter : Bool
  diskName : Option String
  dockerImage : Option String
  ref : Option String
  spot : Bool
  direct : Bool
  wait : Bool

namespace SdkReservation

/-- The ref asks for something, and there is no disk. -/
def noPersistentDisk (call : SdkReservation) : Bool :=
  isGiven call.ref && !(["", "none"].contains (strippedText (textOrNull call.ref)).toLower) &&
    !isGiven call.diskName

def claimParams (call : SdkReservation) (user : String × String) : ClaimParams where
  version := call.version
  userId := user.1
  githubUser := user.2
  gpuCount := call.gpuCount
  gpuType := call.gpuType.toLower
  durationHours := call.hours
  name := call.name
  ref := call.ref

/-- What the message has only where it is asked for. -/
def extraFields (call : SdkReservation) : List (String × Value) :=
  optionalText "disk_name" call.diskName ++ optionalText "dockerimage" call.dockerImage ++
    optionalText "ref" call.ref ++ if call.spot then [("spot", .flag true)] else []

def message (call : SdkReservation) (user : String × String) (reservationId createdAt : String) :
    Attributes :=
  .ofList ([("reservation_id", .text reservationId),
    ("user_id", .text user.1),
    ("gpu_count", .number call.gpuCount),
    ("gpu_type", .text call.gpuType.toLower),
    ("duration_hours", .number call.hours),
    ("name", textOrNull call.name),
    ("created_at", .text createdAt),
    ("status", .text "pending"),
    ("jupyter_enabled", .flag call.jupyter),
    ("recreate_env", .flag false),
    ("no_persistent_disk", .flag call.noPersistentDisk),
    ("github_user", .text user.2),
    ("preserve_entrypoint", .flag false),
    ("version", .text call.version)] ++ call.extraFields)

/-- One node, nothing kept, the default image, on demand. -/
def claimsDirectly (call : SdkReservation) (maxGpus : ℤ) : Bool :=
  call.direct && !isGiven call.diskName && !isGiven call.ref && !isGiven call.dockerImage &&
    !call.spot && (call.gpuCount ≤ 1 || call.gpuCount ≤ maxGpus)

/-- Send the message, and wait for the reservation if that is asked for. -/
def sendAndWait (call : SdkReservation) (user : String × String) : Client (Option String) := do
  let reservationId ← Client.createReservation (call.message user)
  whenever call.wait (waitUntilReady reservationId)
  return some reservationId

def unknownGpuType (call : SdkReservation) : String :=
  "Unknown GPU type: " ++ call.gpuType ++ ". Available: " ++
    ", ".intercalate ((gpuMaxCount.map Prod.fst).mergeSort fun a b => decide (a ≤ b))

/-- `reserve`. Gives the id of the reservation. -/
def reserve (call : SdkReservation) : Client (Option String) :=
  match gpuMaxCount.lookup call.gpuType.toLower with
  | none => throw (.valueError call.unknownGpuType)
  | some maxGpus =>
    if 0 < maxGpus && maxGpus < call.gpuCount then
      throw (.valueError (call.gpuType ++ " supports max " ++ toString maxGpus ++ " GPUs, got " ++
        toString call.gpuCount))
    else do
      let user ← authenticate
      claimFirst (call.claimsDirectly maxGpus) (call.claimParams user) (call.sendAndWait user)

end SdkReservation

/-! ### The command line -/

/-- A reservation of one node by the command line. -/
structure CliReservation where
  version : String
  gpuType : String
  gpuCount : ℤ
  hours : ℚ
  name : Option String
  /-- The name as `sanitize_name` leaves it, if it leaves anything. -/
  processedName : Option String
  jupyter : Bool
  recreateEnv : Bool
  noPersistentDisk : Bool
  dockerfile : Option String
  dockerImage : Option String
  preserveEntrypoint : Bool
  disk : Option String
  nodeLabels : List (String × String)
  ref : Option String
  spot : Bool
  fastCache : Bool
  /-- When the call began, if it is traced. -/
  traceStart : Option ℚ

namespace CliReservation

def claimParams (call : CliReservation) (user : String × String) : ClaimParams where
  version := call.version
  userId := user.1
  githubUser := user.2
  gpuCount := call.gpuCount
  gpuType := call.gpuType
  durationHours := call.hours
  name := call.name
  ref := call.ref

/-- The node labels of the message, if there are any. -/
def labelFields (call : CliReservation) : List (String × Value) :=
  if call.nodeLabels.isEmpty then []
  else [("node_labels", .dict (call.nodeLabels.map fun label => (label.1, .text label.2)))]

/-- What the message says about tracing. -/
def traceFields (call : CliReservation) : List (String × Value) :=
  match call.traceStart with
  | none => []
  | some start => [("trace", .flag true), ("trace_cli_start", .number start)]

/-- What the message has beside what it always begins with. -/
def extraFields (call : CliReservation) (githubUser : String) : List (String × Value) :=
  optionalText "github_user" (some githubUser) ++ optionalText "dockerfile" call.dockerfile ++
    optionalText "dockerimage" call.dockerImage ++
    [("preserve_entrypoint", .flag call.preserveEntrypoint)] ++
    optionalText "disk_name" call.disk ++ call.labelFields ++
    (if call.spot then [("spot", .flag true)] else []) ++
    (if call.fastCache then [("fast_cache", .flag true)] else []) ++
    [("source_command", .text "reserve")] ++ optionalText "ref" call.ref ++ call.traceFields

def message (call : CliReservation) (user : String × String) (reservationId createdAt : String) :
    Attributes :=
  .ofList ([("reservation_id", .text reservationId),
    ("user_id", .text user.1),
    ("gpu_count", .number call.gpuCount),
    ("gpu_type", .text call.gpuType),
    ("duration_hours", .number call.hours),
    ("name", textOrNull call.processedName),
    ("created_at", .text createdAt),
    ("status", .text "pending"),
    ("jupyter_enabled", .flag call.jupyter),
    ("recreate_env", .flag call.recreateEnv),
    ("no_persistent_disk", .flag call.noPersistentDisk),
    ("version", .text call.version)] ++ call.extraFields user.2)

/-- Nothing kept, no ref, the default image, on demand. -/
def claimsDirectly (call : CliReservation) : Bool :=
  !isGiven call.disk && !isGiven call.ref && !isGiven call.dockerfile &&
    !isGiven call.dockerImage && !call.spot

/-- The command `reserve` for one node. Gives the id of the reservation; what `create_reservation`
raises is printed. -/
def reserve (call : CliReservation) : Client (Option String) := do
  let user ← authenticate
  claimFirst call.claimsDirectly (call.claimParams user) (orElseGive (do
    let reservationId ← Client.createReservation (call.message user)
    return some reservationId) none)

end CliReservation

/-! ### What the messages say -/

/-- What says what a message is about. -/
def requestNames : List String := ["reservation_id", "type", "action", "is_multinode"]

/-- The fields say nothing about what a message is about. -/
def SayNothing (fields : List (String × Value)) : Prop := ∀ f ∈ fields, f.1 ∉ requestNames

theorem sayNothing_append {fields more : List (String × Value)} :
    SayNothing (fields ++ more) ↔ SayNothing fields ∧ SayNothing more := List.forall_mem_append

theorem sayNothing_singleton {name : String} {v : Value} (h : name ∉ requestNames) :
    SayNothing [(name, v)] := by simpa [SayNothing] using h

theorem sayNothing_optionalText {name : String} (s : Option String) (h : name ∉ requestNames) :
    SayNothing (optionalText name s) := by
  intro f hf
  obtain ⟨text, -, rfl⟩ := Option.map_eq_some_iff.mp (Option.mem_toList.mp hf)
  exact h

theorem sayNothing_ite {c : Prop} [Decidable c] {fields more : List (String × Value)}
    (h : SayNothing fields) (hmore : SayNothing more) :
    SayNothing (if c then fields else more) := by
  split
  · exact h
  · exact hmore

theorem sayNothing_nil : SayNothing [] := by simp [SayNothing]

/-- What a message is about is what it begins with. -/
theorem SayNothing.apply {fields more : List (String × Value)} {name : String}
    (h : SayNothing more) (hname : name ∈ requestNames) :
    Attributes.ofList (fields ++ more) name = Attributes.ofList fields name := by
  have hnone : Attributes.ofList more name = none := Attributes.ofList_eq_none fun f hf heq =>
    h f hf (heq ▸ hname)
  rw [Attributes.ofList_append, hnone, Option.none_or]

theorem SayNothing.key {fields more : List (String × Value)} (h : SayNothing more) :
    (Attributes.ofList (fields ++ more)).key = (Attributes.ofList fields).key := by
  rw [Attributes.key, Attributes.text, h.apply (by simp [requestNames])]
  rfl

/-- A message that begins without a type, an action and other nodes asks for one node. -/
theorem SayNothing.asksForOneNode {fields more : List (String × Value)} (h : SayNothing more)
    (hfields : ∀ name ∈ ["type", "action", "is_multinode"],
      Attributes.ofList fields name = none) :
    AsksForOneNode (Attributes.ofList (fields ++ more)) := by
  have hnone (name : String) (hname : name ∈ ["type", "action", "is_multinode"]) :
      Attributes.ofList (fields ++ more) name = none :=
    (h.apply (List.mem_cons_of_mem _ hname)).trans (hfields name hname)
  simp [AsksForOneNode, isPlainRequest, Attributes.truthy, hnone]

theorem ClaimParams.key_payload (params : ClaimParams) (reservationId createdAt : String) :
    (params.payload reservationId createdAt).key = reservationId :=
  (sayNothing_optionalText _ (by decide)).key

theorem SdkReservation.sayNothing_extraFields (call : SdkReservation) :
    SayNothing call.extraFields := by
  simp only [extraFields, sayNothing_append]
  exact ⟨⟨⟨sayNothing_optionalText _ (by decide), sayNothing_optionalText _ (by decide)⟩,
    sayNothing_optionalText _ (by decide)⟩, sayNothing_ite (sayNothing_singleton (by decide))
      sayNothing_nil⟩

theorem CliReservation.sayNothing_extraFields (call : CliReservation) (githubUser : String) :
    SayNothing (call.extraFields githubUser) := by
  have hlabels : SayNothing call.labelFields :=
    sayNothing_ite sayNothing_nil (sayNothing_singleton (by decide))
  have htrace : SayNothing call.traceFields := by
    unfold traceFields
    split
    · exact sayNothing_nil
    · simp [SayNothing, requestNames]
  have hflag {c : Bool} {name : String} (hname : name ∉ requestNames) :
      SayNothing (if c then [(name, Value.flag true)] else []) :=
    sayNothing_ite (sayNothing_singleton hname) sayNothing_nil
  simp only [extraFields, sayNothing_append]
  refine ⟨⟨⟨⟨⟨⟨⟨⟨⟨⟨?_, ?_⟩, ?_⟩, ?_⟩, ?_⟩, hlabels⟩, hflag (by decide)⟩, hflag (by decide)⟩,
    ?_⟩, ?_⟩, htrace⟩
  · exact sayNothing_optionalText _ (by decide)
  · exact sayNothing_optionalText _ (by decide)
  · exact sayNothing_optionalText _ (by decide)
  · exact sayNothing_singleton (by decide)
  · exact sayNothing_optionalText _ (by decide)
  · exact sayNothing_singleton (by decide)
  · exact sayNothing_optionalText _ (by decide)

section Messages

variable {user : String × String} {reservationId createdAt : String}

theorem SdkReservation.key_message (call : SdkReservation) :
    (call.message user reservationId createdAt).key = reservationId :=
  call.sayNothing_extraFields.key

theorem SdkReservation.asksForOneNode (call : SdkReservation) :
    AsksForOneNode (call.message user reservationId createdAt) := by
  refine call.sayNothing_extraFields.asksForOneNode fun name hname => ?_
  simp only [List.mem_cons, List.not_mem_nil, or_false] at hname
  obtain rfl | rfl | rfl := hname <;> rfl

theorem CliReservation.key_message (call : CliReservation) :
    (call.message user reservationId createdAt).key = reservationId :=
  (call.sayNothing_extraFields user.2).key

theorem CliReservation.asksForOneNode (call : CliReservation) :
    AsksForOneNode (call.message user reservationId createdAt) := by
  refine (call.sayNothing_extraFields user.2).asksForOneNode fun name hname => ?_
  simp only [List.mem_cons, List.not_mem_nil, or_false] at hname
  obtain rfl | rfl | rfl := hname <;> rfl

end Messages

/-! ### A call and those that serve it -/

/-- A call to reserve. -/
inductive ReserveCall
  | sdk (reservation : SdkReservation)
  | cli (reservation : CliReservation)

/-- The program of a call. -/
def ReserveCall.reserve : ReserveCall → Client (Option String)
  | sdk reservation => reservation.reserve
  | cli reservation => reservation.reserve

/-- Who takes part: the caller, the invocation that its request starts, and those that messages
start. -/
inductive Party
  | caller
  | function
  | worker (n : ℕ)
  deriving DecidableEq

/-- What a call gives or raises. -/
abbrev Outcome := Except Failure (Option String)

/-- The invocation that a request starts. What it raises is no answer. -/
def functionProgram (cfg : Settings) (minVersion : String) :
    Program SiteOp SiteRes (Option Outcome) :=
  .call (.inr .accept) fun
    | none => .done none
    | some payload => (handleDirectClaim cfg minVersion (some payload)).run.left.bind fun
      | .ok response => .call (.inr (.respond response)) fun _ => .done none
      | .error _ => .done none

/-- An invocation that a message starts. -/
def workerProgram (cfg : Settings) (minVersion : String) :
    Program SiteOp SiteRes (Option Outcome) :=
  .call (.inr .receive) fun
    | none => .done none
    | some message => (handleMessage cfg minVersion message).run.left.bind fun _ => .done none

/-- The program of a party; only that of the caller has an outcome. -/
def Party.program (cfg : Settings) (minVersion : String) (call : ReserveCall) :
    Party → Program SiteOp SiteRes (Option Outcome)
  | caller => call.reserve.run.bind fun outcome => .done (some outcome)
  | function => functionProgram cfg minVersion
  | worker _ => workerProgram cfg minVersion

/-- A call and those that serve it, before anything has happened. -/
def reserving (cfg : Settings) (minVersion : String) (call : ReserveCall) (w : World) :
    System Party SiteOp SiteRes (Option Outcome) Site :=
  ⟨⟨w, [], [], [], []⟩, Party.program cfg minVersion call⟩

/-- What else runs: a reservation of the call becomes active there only if its message has been
sent, as the sweep of the queue may do. -/
structure Surrounds (s s' : Site) : Prop where
  requests : s'.requests = s.requests
  responses : s'.responses = s.responses
  queue : s'.queue = s.queue
  drawn : s'.drawn = s.drawn
  activates : ∀ r ∈ s.drawn, s.world.isActive r = false → s'.world.isActive r = true →
    ∃ message ∈ s.queue, message.key = r

end CiInfra.GpuDev
