import CiInfra.GpuDev.Requests

/-!
# The queue sweep

Every minute a sweep goes over the queued reservations, the oldest first, and starts those for
which there is room. It reads the queue from an index, reads each record once more before it
starts it, and writes it without a condition.
-/

namespace CiInfra.GpuDev

open Interaction Fallible

/-- The age filter of the sweep. A text `created_at` is not parsed: `datetime` is assigned by a
nested import further down, so that the name is local and unbound here, and the reservation is
included "to be safe". -/
def isOldEnough (currentTime : ℤ) (reservation : Attributes) : Bool :=
  match reservation "created_at" with
  | some (.number createdAt) => 30 < currentTime - createdAt.floor
  | _ => true

/-- The queued reservations can be sorted by `created_at`: all texts, or all numbers. -/
def sortable (reservations : List Attributes) : Bool :=
  reservations.length ≤ 1 ||
    reservations.all (fun r => match r "created_at" with
      | none => true
      | some (.text _) => true
      | _ => false) ||
    reservations.all (fun r => match r "created_at" with
      | some (.number _) => true
      | _ => false)

/-- The older reservation first. -/
def olderFirst (a b : Attributes) : Bool :=
  match a "created_at", b "created_at" with
  | some (.number s), some (.number t) => s ≤ t
  | _, _ => createdBefore a b

/-- `all_queued_reservations.sort(key=...)`. -/
def sortQueued (reservations : List Attributes) : Lambda (List Attributes) :=
  if sortable reservations then return reservations.mergeSort olderFirst
  else throw (.error "'<' not supported between instances")

/-- The message for a queued reservation that is started. -/
def sweepMessage (gpuType : String) (availableGpus : ℕ) : String :=
  "Found " ++ toString availableGpus ++ " available " ++ gpuType.toUpper ++
    " GPUs - preparing environment"

/-- Allocate a queued reservation; whatever goes wrong sends it back to the queue. -/
def allocateQueued (cfg : Settings) (reservationId : String) (reservation : Attributes) :
    Lambda Unit :=
  tryCatch (allocateGpuResources cfg reservationId (allocationParameters reservation)) fun
    | .snapshotPending message => do
      let terminated ← reservationIsTerminated reservationId
      whenever (!terminated) (updateReservationStatus reservationId "queued" message)
    | e => updateReservationStatus reservationId "queued" ("Allocation error: " ++ e.message)

/-- Start a queued reservation unless its record says meanwhile that it is not queued. -/
def startQueued (cfg : Settings) (reservationId : String) (reservation : Attributes)
    (availableGpus : ℕ) : Lambda Unit := do
  let current ← getItemOrEmpty reservationId
  if current.text "status" "queued" ≠ "queued" then
    return ()
  else do
    updateReservationStatus reservationId "preparing"
      (sweepMessage (reservation.text "gpu_type" "h100") availableGpus)
    allocateQueued cfg reservationId reservation

/-- What the sweep carries from one reservation to the next: the last spot status. -/
abbrev SpotStatus := Option String

/-- The wait of a reservation without room, and the status of its spot type. -/
def estimateWait (cfg : Settings) (reservationId gpuType : String) (position availableGpus : ℕ)
    (spotStatus : SpotStatus) : Lambda (String × SpotStatus) :=
  if availableGpus = 0 then
    if cfg.isSpotType gpuType then do
      logged (attempt (.spotType gpuType))
      let status ← orElseGive (read (.spotStatus gpuType)) "Spot instance requested"
      return ("None", some status)
    else return ("999999", spotStatus)
  else do
    let wait ← orElseGive (count (.waitEstimate reservationId)) (position * 15 : ℕ)
    return (toString wait, spotStatus)

/-- The status of a reservation that stays in the queue. A spot type with some room uses a status
that an earlier reservation left, and raises if there is none. -/
def reportQueued (cfg : Settings) (reservationId gpuType currentStatus : String)
    (position availableGpus : ℕ) (spotStatus : SpotStatus) : Lambda Unit :=
  if cfg.isSpotType gpuType then
    match spotStatus with
    | some status => updateReservationStatus reservationId "queued" status
    | none => throw (.error "cannot access local variable 'spot_status'")
  else whenever (currentStatus = "pending") (updateReservationStatus reservationId "queued"
    (if availableGpus = 0 then
      "In queue position #" ++ toString position ++ " - No " ++ gpuType.toUpper ++
        " GPUs available, contact oncall:pytorch_release_engineering"
    else "In queue position #" ++ toString position))

/-- Update the place of a reservation that stays in the queue. -/
def updateQueued (cfg : Settings) (reservationId : String) (reservation : Attributes)
    (position availableGpus : ℕ) (spotStatus : SpotStatus) : Lambda SpotStatus := do
  let gpuType := reservation.text "gpu_type" "h100"
  let (wait, spotStatus) ← estimateWait cfg reservationId gpuType position availableGpus spotStatus
  updateReservationWithQueueInfo reservationId (.text (toString position)) (.text wait)
    availableGpus
  reportQueued cfg reservationId gpuType (reservation.text "status" "pending") position
    availableGpus spotStatus
  return spotStatus

/-- Whether a spot type of CPU instances has a ready node; other types pass. -/
def cpuSpotReady (cfg : Settings) (gpuType : String) (requestedGpus : ℕ) : Lambda Bool :=
  if startsWith gpuType "cpu-" && requestedGpus = 0 && cfg.isSpotType gpuType then do
    let _ ← checkSchedulableGpusForType gpuType
    orElseGive (do
      let nodes ← listNodes
      return nodes.any fun n => n.isOfType gpuType && n.ready) false
  else return true

/-- One reservation of the sweep. -/
def processQueued (cfg : Settings) (position : ℕ) (reservation : Attributes)
    (spotStatus : SpotStatus) : Lambda SpotStatus := do
  let _ ← required reservation "reservation_id"
  let reservationId := reservation.key
  let requestedGpus := reservation.natural "gpu_count" 1
  let gpuType := reservation.text "gpu_type" "h100"
  let availableGpus ← checkGpuAvailability gpuType
  let maxSingleNode ← checkMaxGpusOnSingleNode gpuType
  let ready ← cpuSpotReady cfg gpuType requestedGpus
  if requestedGpus ≤ availableGpus && requestedGpus ≤ maxSingleNode && ready then do
    startQueued cfg reservationId reservation availableGpus
    return spotStatus
  else updateQueued cfg reservationId reservation position availableGpus spotStatus

/-- The loop of the sweep; what a reservation raises is logged. -/
def sweepLoop (cfg : Settings) : ℕ → SpotStatus → List Attributes → Lambda Unit
  | _, _, [] => return ()
  | position, spotStatus, reservation :: rest => do
    let spotStatus ← orElseGive (processQueued cfg position reservation spotStatus) spotStatus
    sweepLoop cfg (position + 1) spotStatus rest

/-- `process_scheduled_queue_management`. -/
def processScheduledQueueManagement (cfg : Settings) : Lambda Unit := do
  let now ← epoch
  let queued ← orElseGive (find (.status "queued")) []
  let old := queued.filter (isOldEnough now.floor)
  if old.isEmpty then
    return ()
  else do
    let _ ← orElseGive (find (.status "active")) []
    let sorted ← sortQueued old
    sweepLoop cfg 1 none sorted

end CiInfra.GpuDev
