import CiInfra.GpuDev.World
import CiInfra.Lib.Fallible

/-!
# The calls of the Lambdas

What runs in the Lambdas calls the reservations table, Kubernetes and EC2, and consults or
changes things outside the modelled world: EFS, GitHub, the other tables, the clock. A
consistent read of an item answers with its present content; any other read of the table may be
out of date, so nothing is assumed of its answer. Lists of pods, nodes and volumes are snapshots.
A write that raises may still have been applied.
-/

namespace CiInfra.GpuDev

open Interaction

/-- What is raised. -/
inductive Failure
  | conditionalCheckFailed
  | reservationTerminated (reservationId : String)
  | snapshotPending (message : String)
  | notFound
  | valueError (message : String)
  | error (message : String)
  deriving DecidableEq

/-- `str(e)`. -/
def Failure.message : Failure → String
  | conditionalCheckFailed => "ConditionalCheckFailedException"
  | reservationTerminated id => id
  | snapshotPending m => m
  | notFound => "404"
  | valueError m => m
  | error m => m

/-- The items that a query or a scan asks for. -/
inductive Selection
  /-- `StatusIndex`. -/
  | status (s : String)
  /-- `StatusGpuTypeIndex`, and the scan of the queued reservations of a type. -/
  | statusAndGpuType (s gpuType : String)
  /-- `UserIndex`, other live reservations of the user. -/
  | otherLive (user reservationId : String)
  /-- `UserIndex`, the reservations of the user that begin with a prefix. -/
  | ofUser (user start : String)
  /-- The scan for reservations that begin with a prefix. -/
  | startingWith (start : String)
  /-- The scan for the nodes of a multinode reservation, all or those with a status. -/
  | nodesOf (masterReservationId : String) (wanted : Option String)

/-- What the scheduling events of a pod say. -/
inductive SchedulingTrouble
  /-- The message names missing GPUs. -/
  | insufficientGpus
  /-- No node matches the affinity of the pod. -/
  | affinity
  | other

/-- What the events of a pod come down to. -/
inductive PodEvents
  /-- The message to show; empty if there is none. -/
  | plain (message : String)
  /-- The pod fails to be scheduled; `stuck` if it has repeatedly and for over thirty seconds. -/
  | failedScheduling (stuck : Bool) (why : SchedulingTrouble)

/-- What is seen of a pod: its phase, its log, its events, and the progress of its startup. -/
structure PodObservation where
  phase : String
  logs : String
  events : PodEvents
  startupMessage : String

/-- What the code consults or changes outside the modelled world. -/
inductive Outside
  | keysInMemory (user : String)
  | keyCacheFresh (user : String)
  | githubKeys (user : String)
  | timeAfter (hours : ℚ)
  | isOlderThan (createdAt : Value) (seconds : ℕ)
  | dockerImage (reservationId : String)
  | dockerBuild (reservationId : String)
  | snapshotPending (user disk : String)
  | snapshotOf (user disk : String)
  | snapshotInitial (user disk : String)
  | cloneSource (user disk : String)
  | cloneState (user disk : String)
  | volumeReady (volumeId : String)
  | nvmeCache (user : String)
  | efsConfigured
  | efs (user : String)
  | buildJob (reservationId : String)
  | diskTable (user disk : String)
  | dnsEnabled
  | dnsName (reservationId : String)
  | domainMapping (domain : String)
  | loadBalancer (reservationId : String)
  | service (name : String)
  | nodePort
  | exec (podName : String)
  | monitorRunning (reservationId : String)
  | podReady (podName : String)
  | nodeAddress (podName : String)
  | instanceType (podName : String)
  | gpuTypeOf (podName : String)
  | jupyter (podName : String)
  | jupyterLog (podName : String)
  | sshDaemon (podName : String)
  | podErrors (podName : String)
  | waitEstimate (reservationId : String)
  | availabilityTable (gpuType : String)
  | spotType (gpuType : String)
  | spotStatus (gpuType : String)
  | cliVersion (reservationId : String)
  | podAge (podName : String)
  | podImage (podName : String)
  | currentImage
  | trigger (name : String)
  | stopEvent (reservationId : String)
  | podDead (podName : String)
  | outOfMemory (podName : String)
  | expiry (reservationId : String)
  | snapshot (volumeId : String)
  | operation (operationId : String)
  | trace (reservationId : String)
  | jupyterService (podName : String)
  | extendedExpiry (expiresAt hours : Value)
  | beyondMaximum (launchedAt : Value) (expiresAt : String)
  | operationResult (operationId status error : String)
  | diskEntry (user disk : String)
  | diskDeletion (user disk deleteDate markedDeletedAt : String)
  | diskSnapshots (user disk : String)
  | snapshotTags (user disk : String) (i : ℕ)
  | snapshotTagging (user disk : String) (i : ℕ) (deleteDate markedDeletedAt : String)
  | latestSnapshot (user disk : String)
  | volumeOf (user disk : String)
  | liveSnapshot (volumeId user disk : String)
  | snapshotCompleted (snapshotId : String)
  | diskMetadata (user disk : String)
  | clonedEntry (user disk source snapshotId metadata : String)
  | detachment (user disk : String)

/-- The calls. -/
inductive Op
  | getItem (id : String) (consistentRead : Bool)
  | find (s : Selection)
  | putItem (item : Attributes) (condition : Option Condition)
  | updateItem (id : String) (u : Update)
  | deleteItem (id : String)
  | listWarmPods (gpuType state : Option String)
  | listPodsOn (node : String)
  | listNodes
  | readPod (name : String)
  | createPod (name : String) (p : Pod)
  | patchPod (name : String) (labels annotations : List (String × Option String))
  | deletePod (name : String)
  | describeVolumes (user disk : String)
  | createVolume (volumeId : String) (v : Volume)
  /-- `datetime.utcnow().isoformat()`. -/
  | clock
  /-- `time.time()`. -/
  | epoch
  /-- `uuid.uuid4()`. -/
  | freshId
  /-- A yes or no from outside, or an action there. -/
  | ask (o : Outside)
  /-- A text from outside. -/
  | read (o : Outside)
  /-- A number from outside. -/
  | count (o : Outside)
  /-- The messages of a build, and whether it succeeded. -/
  | build (o : Outside)
  | observePod (podName : String)
  /-- Which of two threads goes on. -/
  | turn

/-- The answers to each call. -/
def Op.Res : Op → Type
  | getItem _ _ => Except Failure (Option Attributes)
  | find _ => Except Failure (List Attributes)
  | putItem _ _ => Except Failure Unit
  | updateItem _ _ => Except Failure Unit
  | deleteItem _ => Except Failure Unit
  | listWarmPods _ _ => Except Failure (List NamedPod)
  | listPodsOn _ => Except Failure (List NamedPod)
  | listNodes => Except Failure (List Node)
  | readPod _ => Except Failure Pod
  | createPod _ _ => Except Failure Unit
  | patchPod _ _ _ => Except Failure Unit
  | deletePod _ => Except Failure Unit
  | describeVolumes _ _ => Except Failure (List Volume)
  | createVolume _ _ => Except Failure Unit
  | clock => String
  | epoch => ℚ
  | freshId => String
  | ask _ => Except Failure Bool
  | read _ => Except Failure String
  | count _ => Except Failure ℚ
  | build _ => Except Failure (List String × Bool)
  | observePod _ => Except Failure PodObservation
  | turn => Bool

/-! ### What the world answers -/

/-- The world after a call that goes through; `none` if it is refused. -/
def Op.effect : Op → World → Option World
  | putItem item condition, w => w.withTable (w.table.put item condition)
  | updateItem id u, w => w.withTable (w.table.update id u)
  | deleteItem id, w => w.withTable (some (w.table.delete id))
  | createPod name p, w => w.createPod name p
  | patchPod name labels annotations, w => w.modifyPod name fun p => p.patch labels annotations
  | deletePod name, w => w.modifyPod name fun p => { p with deletionRequested := true }
  | createVolume volumeId v, w => some { w with volumes := w.volumes.insert volumeId v }
  | _, w => some w

/-- How a write may be answered. One that goes through is applied; one that is refused, or
raises for another reason, may raise anything, and in the latter case may have been applied. -/
def Op.AnswersWrite (op : Op) (w : World) (r : Except Failure Unit) (w' : World) : Prop :=
  match r with
  | .ok () => op.effect w = some w'
  | .error _ => w' = w ∨ op.effect w = some w'

/-- How a read may be answered: it raises, or shows what is there. -/
def AnswersRead {α : Type} (w : World) (present : Option α) (r : Except Failure α) (w' : World) :
    Prop :=
  w' = w ∧ ∀ a, r = .ok a → present = some a

/-- `op.Answers w r w'`: in the world `w`, the call may be answered `r`, leaving `w'`. -/
def Op.Answers : (op : Op) → World → op.Res → World → Prop
  | getItem id consistentRead, w, r, w' =>
    w' = w ∧ (consistentRead = true → ∀ item, r = .ok item → item = w.table.get id)
  | find _, w, _, w' => w' = w
  | putItem item condition, w, r, w' => (putItem item condition).AnswersWrite w r w'
  | updateItem id u, w, r, w' => (updateItem id u).AnswersWrite w r w'
  | deleteItem id, w, r, w' => (deleteItem id).AnswersWrite w r w'
  | listWarmPods gpuType state, w, r, w' => AnswersRead w (some (w.warmPods gpuType state)) r w'
  | listPodsOn node, w, r, w' => AnswersRead w (some (w.podsOn node)) r w'
  | listNodes, w, r, w' => AnswersRead w (some w.nodes) r w'
  | readPod name, w, r, w' => AnswersRead w (w.pods.lookup name) r w'
  | createPod name p, w, r, w' => (createPod name p).AnswersWrite w r w'
  | patchPod name labels annotations, w, r, w' =>
    (patchPod name labels annotations).AnswersWrite w r w'
  | deletePod name, w, r, w' => (deletePod name).AnswersWrite w r w'
  | describeVolumes user disk, w, r, w' => AnswersRead w (some (w.volumesOf user disk)) r w'
  | createVolume volumeId v, w, r, w' => (createVolume volumeId v).AnswersWrite w r w'
  | clock, w, _, w' => w' = w
  | epoch, w, _, w' => w' = w
  | freshId, w, _, w' => w' = w
  | ask _, w, _, w' => w' = w
  | read _, w, _, w' => w' = w
  | count _, w, _, w' => w' = w
  | build _, w, _, w' => w' = w
  | observePod _, w, _, w' => w' = w
  | turn, w, _, w' => w' = w

/-- The call does not change the world. -/
def Op.IsQuiet : Op → Bool
  | putItem _ _ | updateItem _ _ | deleteItem _ | createPod _ _ | patchPod _ _ _ | deletePod _
  | createVolume _ _ => false
  | _ => true

/-- The answers given from outside, for runs that are played. -/
structure Script where
  find : Selection → List Attributes → List Attributes
  ask : Outside → Except Failure Bool
  read : Outside → Except Failure String
  count : Outside → Except Failure ℚ
  pod : String → Except Failure PodObservation

/-- The item is one that the query or scan asks for. -/
def Selection.selects (s : Selection) (item : Attributes) : Bool :=
  match s with
  | status s => item.isOneOf "status" [s]
  | statusAndGpuType s gpuType => item.isOneOf "status" [s] && item.isOneOf "gpu_type" [gpuType]
  | otherLive user reservationId =>
    item.isOneOf "user_id" [user] && item.isOneOf "status" liveStatuses &&
      item.key != reservationId
  | ofUser user start =>
    item.isOneOf "user_id" [user] && start.toList.isPrefixOf item.key.toList
  | startingWith start => start.toList.isPrefixOf item.key.toList
  | nodesOf masterReservationId wanted =>
    item.isOneOf "master_reservation_id" [masterReservationId] &&
      wanted.all fun s => item.isOneOf "status" [s]

/-- The script of a day on which everything outside goes well: queries and scans show the
whole table as it is. -/
def Script.fine : Script where
  find s items := items.filter s.selects
  ask _ := .ok true
  read _ := .ok "x"
  count _ := .ok 0
  pod _ := .error .notFound

/-- A write that is applied unless it is refused. -/
def Op.write (op : Op) (w : World) : Except Failure Unit × World :=
  match op.effect w with
  | some w' => (.ok (), w')
  | none => (.error .conditionalCheckFailed, w)

/-- Answer a call with the world as it is and a script for the rest. -/
def Script.serve (script : Script) : (op : Op) → World → op.Res × World
  | .getItem id _, w => (.ok (w.table.get id), w)
  | .find s, w => (.ok (script.find s w.table.items), w)
  | .putItem item condition, w => (Op.putItem item condition).write w
  | .updateItem id u, w => (Op.updateItem id u).write w
  | .deleteItem id, w => (Op.deleteItem id).write w
  | .listWarmPods gpuType state, w => (.ok (w.warmPods gpuType state), w)
  | .listPodsOn node, w => (.ok (w.podsOn node), w)
  | .listNodes, w => (.ok w.nodes, w)
  | .readPod name, w =>
    match w.pods.lookup name with
    | some p => (.ok p, w)
    | none => (.error .notFound, w)
  | .createPod name p, w => (Op.createPod name p).write w
  | .patchPod name labels annotations, w => (Op.patchPod name labels annotations).write w
  | .deletePod name, w => (Op.deletePod name).write w
  | .describeVolumes user disk, w => (.ok (w.volumesOf user disk), w)
  | .createVolume volumeId v, w => (Op.createVolume volumeId v).write w
  | .clock, w => ("2026-08-17T16:27:45", w)
  | .epoch, w => ((1786984065 : ℚ), w)
  | .freshId, w => ("00000000-0000-4000-8000-000000000000", w)
  | .ask o, w => (script.ask o, w)
  | .read o, w => (script.read o, w)
  | .count o, w => (script.count o, w)
  | .build _, w => (.ok ([], true), w)
  | .observePod podName, w => (script.pod podName, w)
  | .turn, w => (true, w)

theorem Op.answersWrite_write (op : Op) (w : World) :
    op.AnswersWrite w (op.write w).1 (op.write w).2 := by
  unfold write
  split
  · assumption
  · exact Or.inl rfl

theorem answersRead_some {α : Type} (w : World) (a : α) : AnswersRead w (some a) (.ok a) w :=
  ⟨rfl, fun _ h => by cases h; rfl⟩

/-- A scripted answer is one that the call may be given. -/
theorem Script.answers_serve (script : Script) (op : Op) (w : World) :
    op.Answers w (script.serve op w).1 (script.serve op w).2 := by
  cases op with
  | getItem id consistentRead =>
    refine ⟨rfl, fun _ item h => ?_⟩
    cases h
    rfl
  | putItem item condition => exact Op.answersWrite_write (.putItem item condition) w
  | updateItem id u => exact Op.answersWrite_write (.updateItem id u) w
  | deleteItem id => exact Op.answersWrite_write (.deleteItem id) w
  | createPod name p => exact Op.answersWrite_write (.createPod name p) w
  | patchPod name l a => exact Op.answersWrite_write (.patchPod name l a) w
  | deletePod name => exact Op.answersWrite_write (.deletePod name) w
  | createVolume v x => exact Op.answersWrite_write (.createVolume v x) w
  | listWarmPods gpuType state => exact answersRead_some w _
  | listPodsOn node => exact answersRead_some w _
  | listNodes => exact answersRead_some w _
  | describeVolumes user disk => exact answersRead_some w _
  | readPod name =>
    simp only [serve]
    split
    · exact ⟨rfl, fun a h => by cases h; assumption⟩
    · exact ⟨rfl, fun a h => by cases h⟩
  | _ => rfl

/-- A quiet call leaves the world as it is. -/
theorem Op.eq_of_isQuiet {op : Op} {w w' : World} {r : op.Res} (h : op.Answers w r w')
    (hq : op.IsQuiet = true) : w' = w := by
  cases op with
  | putItem _ _ | updateItem _ _ | deleteItem _ | createPod _ _ | patchPod _ _ _ | deletePod _
  | createVolume _ _ => cases hq
  | getItem _ _ => exact h.1
  | listWarmPods _ _ => exact h.1
  | listPodsOn _ => exact h.1
  | listNodes => exact h.1
  | readPod _ => exact h.1
  | describeVolumes _ _ => exact h.1
  | _ => exact h

/-! ### Single calls as programs -/

/-- Programs that run in the Lambdas. -/
abbrev Lambda := Fallible Op Op.Res Failure

open Fallible

/-- `table.get_item`. -/
def getItem (id : String) (consistentRead : Bool := false) : Lambda (Option Attributes) :=
  request (.getItem id consistentRead) fun r => r

/-- A query or a scan, with all its pages. -/
def find (s : Selection) : Lambda (List Attributes) := request (.find s) id

/-- `table.put_item`. -/
def putItem (item : Attributes) (condition : Option Condition := none) : Lambda Unit :=
  request (.putItem item condition) id

/-- `table.update_item`. -/
def updateItem (id : String) (u : Update) : Lambda Unit :=
  request (.updateItem id u) fun r => r

/-- `table.delete_item`. -/
def deleteItem (id : String) : Lambda Unit := request (.deleteItem id) fun r => r

/-- `_list_warm_pods`. -/
def listWarmPods (gpuType state : Option String := none) : Lambda (List NamedPod) :=
  request (.listWarmPods gpuType state) id

/-- `v1.list_pod_for_all_namespaces(field_selector="spec.nodeName=...")`. -/
def listPodsOn (node : String) : Lambda (List NamedPod) := request (.listPodsOn node) id

/-- `v1.list_node()`. -/
def listNodes : Lambda (List Node) := request (.listNodes) id

/-- `v1.read_namespaced_pod`. -/
def readPod (name : String) : Lambda Pod := request (.readPod name) id

/-- `v1.create_namespaced_pod`. -/
def createNamespacedPod (name : String) (p : Pod) : Lambda Unit :=
  request (.createPod name p) id

/-- `v1.patch_namespaced_pod`. -/
def patchPod (name : String) (labels annotations : List (String × Option String)) : Lambda Unit :=
  request (.patchPod name labels annotations) id

/-- `v1.delete_namespaced_pod`. -/
def deletePod (name : String) : Lambda Unit := request (.deletePod name) id

/-- `ec2_client.describe_volumes`. -/
def describeVolumes (user disk : String) : Lambda (List Volume) :=
  request (.describeVolumes user disk) id

/-- `ec2_client.create_volume`. -/
def createVolume (volumeId : String) (v : Volume) : Lambda Unit :=
  request (.createVolume volumeId v) id

/-- `datetime.utcnow().isoformat()`. -/
def clock : Lambda String := request (.clock) .ok

/-- `time.time()`. -/
def epoch : Lambda ℚ := request (.epoch) .ok

/-- `uuid.uuid4()`. -/
def freshId : Lambda String := request (.freshId) .ok

/-- A yes or no from outside. -/
def ask (o : Outside) : Lambda Bool := request (.ask o) id

/-- An action outside. -/
def attempt (o : Outside) : Lambda Unit := request (.ask o) fun r => r.map fun _ => ()

/-- A text from outside. -/
def read (o : Outside) : Lambda String := request (.read o) id

/-- A number from outside. -/
def count (o : Outside) : Lambda ℚ := request (.count o) id

/-- The messages of a build, and whether it succeeded. -/
def build (o : Outside) : Lambda (List String × Bool) := request (.build o) id

/-- What is seen of a pod; raises `notFound` if there is none. -/
def observePod (name : String) : Lambda PodObservation := request (.observePod name) id

/-- Three threads of one Lambda, run to their results, raised exceptions included. -/
def inThreeThreads {α β γ : Type} (p : Lambda α) (q : Lambda β) (r : Lambda γ) :
    Lambda (Except Failure α × Except Failure β × Except Failure γ) :=
  ExceptT.mk ((Program.together .turn id p.run (Program.together .turn id q.run r.run)).bind
    fun r => .done (.ok r))

/-- Any number of threads of one Lambda. -/
def allInThreads {α : Type} (ps : List (Lambda α)) : Lambda (List (Except Failure α)) :=
  ExceptT.mk ((Program.allTogether .turn id (ps.map ExceptT.run)).bind fun r => .done (.ok r))

end CiInfra.GpuDev
