import CiInfra.GpuDev.Management

/-!
# The messages of the SDK and of the command line

Both clients manage reservations and disks through messages in the same queue. They share nothing
with the processor but the keys of these messages.
-/

namespace CiInfra.GpuDev

open Interaction Fallible

/-- A call that manages something that exists. -/
inductive ManagementCall
  | cancelReservation (reservationId userId : String)
  | extendReservation (reservationId userId : String) (hours : ℚ)
  | addUser (reservationId userId githubUsername : String)
  | cloneDisk (userId sourceDisk targetDisk : String)
  | deleteDisk (userId diskName : String)

/-- What a client adds to a message when it sends it. -/
structure Postmark where
  version : String
  operationId : String
  requestedAt : String
  /-- The day thirty days later. -/
  deleteDate : String

/-- The message that `AwsBackend` of the SDK sends. -/
def sdkMessage (mark : Postmark) : ManagementCall → Attributes
  | .cancelReservation reservationId userId => .ofList
    [("type", .text "cancellation"), ("reservation_id", .text reservationId),
      ("user_id", .text userId), ("version", .text mark.version)]
  | .extendReservation reservationId userId hours => .ofList
    [("type", .text "extend"), ("reservation_id", .text reservationId), ("user_id", .text userId),
      ("extend_hours", .number hours), ("version", .text mark.version)]
  | .addUser reservationId userId githubUsername => .ofList
    [("type", .text "add_user"), ("reservation_id", .text reservationId),
      ("user_id", .text userId), ("github_username", .text githubUsername),
      ("version", .text mark.version)]
  | .cloneDisk userId sourceDisk targetDisk => .ofList
    [("action", .text "clone_disk"), ("operation_id", .text mark.operationId),
      ("user_id", .text userId), ("source_disk", .text sourceDisk),
      ("target_disk", .text targetDisk), ("version", .text mark.version),
      ("requested_at", .text mark.requestedAt)]
  | .deleteDisk userId diskName => .ofList
    [("action", .text "delete_disk"), ("operation_id", .text mark.operationId),
      ("user_id", .text userId), ("disk_name", .text diskName), ("version", .text mark.version),
      ("requested_at", .text mark.requestedAt)]

/-- The message that the command line sends. -/
def cliMessage (mark : Postmark) : ManagementCall → Attributes
  | .cancelReservation reservationId userId => .ofList
    [("type", .text "cancellation"), ("reservation_id", .text reservationId),
      ("user_id", .text userId), ("requested_at", .text mark.requestedAt),
      ("version", .text mark.version)]
  | .extendReservation reservationId userId hours => .ofList
    [("action", .text "extend_reservation"), ("reservation_id", .text reservationId),
      ("user_id", .text userId), ("extension_hours", .number hours),
      ("version", .text mark.version)]
  | .addUser reservationId userId githubUsername => .ofList
    [("action", .text "add_user"), ("reservation_id", .text reservationId),
      ("user_id", .text userId), ("github_username", .text githubUsername),
      ("version", .text mark.version)]
  | .cloneDisk userId sourceDisk targetDisk => .ofList
    [("action", .text "clone_disk"), ("operation_id", .text mark.operationId),
      ("user_id", .text userId), ("source_disk", .text sourceDisk),
      ("target_disk", .text targetDisk), ("version", .text mark.version),
      ("requested_at", .text mark.requestedAt)]
  | .deleteDisk userId diskName => .ofList
    [("action", .text "delete_disk"), ("operation_id", .text mark.operationId),
      ("user_id", .text userId), ("disk_name", .text diskName),
      ("delete_date", .text mark.deleteDate), ("version", .text mark.version),
      ("requested_at", .text mark.requestedAt)]

/-- What the call is named for. -/
def ManagementCall.action : ManagementCall → Action
  | cancelReservation _ _ => .cancellation
  | extendReservation _ _ _ => .extendReservation
  | addUser _ _ _ => .addUser
  | cloneDisk _ _ _ => .cloneDisk
  | deleteDisk _ _ => .deleteDisk

/-- The fields that the handler insists on. -/
def ManagementCall.requiredFields : ManagementCall → List String
  | cancelReservation _ _ => ["reservation_id", "user_id"]
  | extendReservation _ _ _ => extensionRequestFields
  | addUser _ _ _ => addUserFields
  | cloneDisk _ _ _ => cloneDiskFields
  | deleteDisk _ _ => deleteDiskFields

/-- The SDK's message is dispatched to the action that the call is named for, carries every field
that the action insists on, and is handled as the message of the command line is. -/
structure SpeaksProcessorsLanguage (call : ManagementCall) : Prop where
  dispatched : ∀ mark, dispatch (sdkMessage mark call) = call.action
  carries : ∀ mark, (sdkMessage mark call).carriesAll call.requiredFields = true
  handled : ∀ mark cfg minVersion, handleMessage cfg minVersion (sdkMessage mark call) =
    handleMessage cfg minVersion (cliMessage mark call)

/-- The call is one whose messages the processor understands, and names what it is about. -/
def ManagementCall.IsUnderstood : ManagementCall → Prop
  | cancelReservation reservationId userId => reservationId ≠ "" ∧ userId ≠ ""
  | cloneDisk userId sourceDisk targetDisk => userId ≠ "" ∧ sourceDisk ≠ "" ∧ targetDisk ≠ ""
  | _ => False

/-- A cancellation is handled by its reservation and its user. -/
theorem handleMessage_cancellation {m m' : Attributes} (cfg : Settings) (minVersion : String)
    (htype : m "type" = some (.text "cancellation"))
    (htype' : m' "type" = some (.text "cancellation"))
    (hid : m "reservation_id" = m' "reservation_id") (huser : m "user_id" = m' "user_id") :
    handleMessage cfg minVersion m = handleMessage cfg minVersion m' := by
  have hplain : isPlainRequest m = false := by simp [isPlainRequest, htype, Value.isText]
  have hplain' : isPlainRequest m' = false := by simp [isPlainRequest, htype', Value.isText]
  have hdispatch : dispatch m = .cancellation := by simp [dispatch, Attributes.isOneOf, htype]
  have hdispatch' : dispatch m' = .cancellation := by simp [dispatch, Attributes.isOneOf, htype']
  have hhandle : processCancellationRequest m = processCancellationRequest m' := by
    have hidText : m.text "reservation_id" = m'.text "reservation_id" := by
      rw [Attributes.text, hid, Attributes.text]
    have huserText : m.text "user_id" = m'.text "user_id" := by
      rw [Attributes.text, huser, Attributes.text]
    rw [processCancellationRequest, hidText, huserText, processCancellationRequest]
  rw [handleMessage_of_not_plain hplain, handleMessage_of_not_plain hplain', hdispatch, hdispatch']
  exact congrArg (orElseGive · false) hhandle

/-- The SDK's cancellations and clones carry what their handlers insist on unless an argument is
empty; its deletions of disks never do. -/
theorem carriesAll_sdkMessage (mark : Postmark) (call : ManagementCall)
    (hdispatch : dispatch (sdkMessage mark call) = call.action) :
    (sdkMessage mark call).carriesAll call.requiredFields = true ↔ call.IsUnderstood := by
  cases call with
  | extendReservation _ _ _ => cases hdispatch
  | addUser _ _ _ => cases hdispatch
  | _ =>
    simp [sdkMessage, ManagementCall.requiredFields, ManagementCall.IsUnderstood, cloneDiskFields,
      deleteDiskFields, Attributes.carriesAll, Attributes.truthy, Attributes.ofList,
      List.lookup_cons,
      Value.truthy]

/-- Exactly the cancellations and the clones of the SDK are in the language of the processor. -/
theorem speaksProcessorsLanguage_iff (call : ManagementCall) :
    SpeaksProcessorsLanguage call ↔ call.IsUnderstood := by
  constructor
  · intro h
    have mark : Postmark := ⟨"", "", "", ""⟩
    exact (carriesAll_sdkMessage mark call (h.dispatched mark)).mp (h.carries mark)
  · intro h
    have hdispatch : ∀ mark, dispatch (sdkMessage mark call) = call.action := by
      cases call with
      | cancelReservation _ _ => exact fun _ => rfl
      | cloneDisk _ _ _ => exact fun _ => rfl
      | _ => cases h
    refine ⟨hdispatch, fun mark => (carriesAll_sdkMessage mark call (hdispatch mark)).mpr h, ?_⟩
    cases call with
    | cancelReservation _ _ =>
      exact fun _ cfg minVersion => handleMessage_cancellation cfg minVersion rfl rfl rfl rfl
    | cloneDisk _ _ _ => exact fun _ _ _ => rfl
    | _ => cases h

/-- A table with one reservation, which is in use. -/
def inUse : World where
  table := (∅ : Table).store "5f0c" (.ofList
    [("reservation_id", .text "5f0c"), ("user_id", .text "ada"), ("status", .text "active"),
      ("pod_name", .text "gpu-dev-5f0c"), ("expires_at", .text "2026-08-17T20:00:00"),
      ("duration_hours", .number 4)])
  pods := ∅
  nodes := []
  volumes := ∅

/-- The record has the status once a message has been handled on a fine day. -/
def leavesStatus (message : Attributes) (status : String) : Bool :=
  (((handleMessage .usual "0.3.9" message).result Script.fine.serve inUse).2.table.get "5f0c").any
    fun item => item.isOneOf "status" [status]

def postmark : Postmark := ⟨"0.3.9", "7d1e", "2026-08-17T16:00:00+00:00", "2026-09-16"⟩

/-- The SDK's extension of a reservation in use is taken for a request and fails the reservation;
that of the command line leaves it active. -/
theorem not_speaksProcessorsLanguage :
    ¬ SpeaksProcessorsLanguage (.extendReservation "5f0c" "ada" 2) ∧
      leavesStatus (sdkMessage postmark (.extendReservation "5f0c" "ada" 2)) "failed" = true ∧
      leavesStatus (cliMessage postmark (.extendReservation "5f0c" "ada" 2)) "active" = true := by
  constructor
  · intro h
    cases h.dispatched ⟨"", "", "", ""⟩
  · decide +kernel

end CiInfra.GpuDev
