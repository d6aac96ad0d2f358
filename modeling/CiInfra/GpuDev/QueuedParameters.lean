import CiInfra.GpuDev.EndedReservations
import Mathlib.Data.List.Induction

/-!
# What a request gets after it has waited

A request that finds room is allocated from its message. One that has to wait is allocated from
its record, which was put field by field, under partly different names, and has been updated
since. This file says which requests are allocated with the same parameters either way.
-/

namespace CiInfra.GpuDev

open Interaction Fallible

namespace Attributes

theorem carry_self (a dest : Attributes) (name field : String) :
    a.carry name dest field field = (a name).or (dest field) := by
  unfold carry
  cases a name with
  | none => rfl
  | some v => exact Function.update_self _ _ _

theorem carryTruthy_self (a dest : Attributes) (name field : String) :
    a.carryTruthy name dest field field = ((a name).filter Value.truthy).or (dest field) := by
  unfold carryTruthy
  cases a name with
  | none => rfl
  | some v => cases hv : v.truthy <;> simp [Option.filter, hv, set]

/-- The attribute is missing or `False`. -/
def IsOff (a : Attributes) (name : String) : Prop := (a name).getD (.flag false) = .flag false

/-- The attribute is missing, or its truth value is true. -/
def IsUnsetOrTruthy (a : Attributes) (name : String) : Prop := (a name).filter Value.truthy = a name

end Attributes

/-! ### The record of a waiting request -/

/-- How the record of a request began. -/
inductive Beginning
  /-- `process_reservation_request` put it. -/
  | initial (now expiresAt : String)
  /-- `create_reservation` put it. -/
  | created (userId : Value) (now expiresAt : String)
  /-- No put went through, and an update made an item with nothing but its key. -/
  | bare

/-- The record at its beginning. -/
def Beginning.record (cfg : Settings) (request : Attributes) : Beginning → Attributes
  | initial now expiresAt =>
    initialRecord request (request.number "duration_hours" 8) now expiresAt
  | created userId now expiresAt => createdRecord cfg request request.key userId now expiresAt
      (request.number "duration_hours" cfg.defaultTimeoutHours)
  | bare => .ofList [("reservation_id", .text request.key)]

/-- The record of a request began in this way, and these updates have been applied to it. -/
structure StoredAs (cfg : Settings) (request : Attributes) (start : Beginning) (us : List Update)
    (item : Attributes) : Prop where
  user : ∀ userId now expiresAt, start = .created userId now expiresAt →
    request "user_id" = some userId
  lawful : ∀ u ∈ us, u.IsLawful
  applied : us.foldlM Update.apply (start.record cfg request) = some item

/-- What an update writes to an attribute. -/
def Update.written (u : Update) (name : String) : Option Value :=
  match u with
  | set fields => Attributes.ofList fields name
  | append _ _ => none

/-- What has been written to an attribute last. -/
def lastWritten (us : List Update) (name : String) : Option Value :=
  us.foldl (fun v u => (u.written name).or v) none

theorem Update.apply_parameter {u : Update} {item item' : Attributes} (hu : u.IsLawful)
    (h : u.apply item = some item') {name : String} (hname : name ∈ parameterNames) :
    item' name = (u.written name).or (item name) := by
  cases u with
  | set fields =>
    cases h
    rfl
  | append other v =>
    have hother : name ≠ other := fun heq => hu.parameters (heq ▸ hname)
    simp only [Update.apply] at h
    split at h <;> cases h <;> exact Attributes.set_of_ne _ hother _

theorem lastWritten_append (us : List Update) (u : Update) (name : String) :
    lastWritten (us ++ [u]) name = (u.written name).or (lastWritten us name) := by
  simp [lastWritten]

/-- A parameter reads as it was written last, or as it was at the beginning. -/
theorem apply_parameter {us : List Update} {first item : Attributes}
    (hlawful : ∀ u ∈ us, u.IsLawful) (h : us.foldlM Update.apply first = some item) {name : String}
    (hname : name ∈ parameterNames) : item name = (lastWritten us name).or (first name) := by
  induction us using List.reverseRecOn generalizing item with
  | nil =>
    cases h
    rfl
  | append_singleton us u ih =>
    obtain ⟨hus, hu⟩ := List.forall_mem_append.mp hlawful
    rw [List.foldlM_append] at h
    obtain ⟨item', hitem', h⟩ := Option.bind_eq_some_iff.mp h
    have happly : u.apply item' = some item := by simpa using h
    rw [Update.apply_parameter (hu u (by simp)) happly hname, ih hus hitem', lastWritten_append,
      Option.or_assoc]

/-- Most parameters are never written by an update. -/
theorem lastWritten_eq_none {us : List Update} (hlawful : ∀ u ∈ us, u.IsLawful) {name : String}
    (hname : name ∈ parameterNames) (hkept : name ∉ ["disk_name", "gpu_type", "jupyter_enabled"]) :
    lastWritten us name = none := by
  induction us using List.reverseRecOn with
  | nil => rfl
  | append_singleton us u ih =>
    obtain ⟨hus, hu⟩ := List.forall_mem_append.mp hlawful
    rw [lastWritten_append, ih hus, Option.or_none]
    have hparameters := (hu u (by simp)).parameters
    cases u with
    | set fields =>
      exact Attributes.ofList_eq_none fun f hf heq =>
        hkept (heq ▸ hparameters f hf (heq ▸ hname))
    | append _ _ => rfl

/-! ### What the record keeps -/

section Reads

variable {cfg : Settings} {request : Attributes} {start : Beginning} {us : List Update}
  {item : Attributes}

theorem StoredAs.read (h : StoredAs cfg request start us item) {name : String}
    (hname : name ∈ parameterNames) :
    item name = (lastWritten us name).or (start.record cfg request name) :=
  apply_parameter h.lawful h.applied hname

/-- A parameter that no update writes reads as at the beginning. -/
theorem StoredAs.read_kept (h : StoredAs cfg request start us item) {name : String}
    (hname : name ∈ parameterNames) (hkept : name ∉ ["disk_name", "gpu_type", "jupyter_enabled"]) :
    item name = start.record cfg request name := by
  rw [h.read hname, lastWritten_eq_none h.lawful hname hkept, Option.none_or]

end Reads

section Allocated

variable {cfg : Settings} {request : Attributes} {start : Beginning} {us : List Update}
  {item : Attributes}

/-- The parameters that every record of a request for one node gives, whatever it asks for: the
options that are not written to it are lost, and an update may have written the others. -/
def storedParameters (request : Attributes) (us : List Update) : AllocationParameters :=
  { allocationParameters request with
    gpuType := match lastWritten us "gpu_type" with
      | some (.text s) => s
      | some _ => "a100"
      | none => request.text "gpu_type" "a100"
    fastCache := .flag false
    isMultinode := .flag false
    dockerfile := none
    nodeLabels := none
    ref := "master"
    peerPods := [] }

/-- The parameters that the record of a request gives. -/
def Beginning.parameters (cfg : Settings) (request : Attributes) (us : List Update) :
    Beginning → AllocationParameters
  | initial _ _ =>
    { storedParameters request us with
      diskName := (lastWritten us "disk_name").or ((request "disk_name").filter Value.truthy)
      githubUser := ((request "github_user").filter Value.truthy).or (request "user_id")
      dockerimage := (request "dockerimage").filter Value.truthy
      preserveEntrypoint := .flag false
      name := initialRecord request 0 "" "" "name"
      jupyterEnabled := (lastWritten us "jupyter_enabled").getD (.flag false) }
  | created _ _ _ =>
    { storedParameters request us with
      diskName := (lastWritten us "disk_name").or (request "disk_name")
      dockerimage := none
      durationHours := request.number "duration_hours" cfg.defaultTimeoutHours
      jupyterEnabled := ((lastWritten us "jupyter_enabled").or (request "jupyter_enabled")).getD
        (.flag false) }
  | bare =>
    { storedParameters (fun _ => none) us with
      diskName := lastWritten us "disk_name"
      jupyterEnabled := (lastWritten us "jupyter_enabled").getD (.flag false) }

/-- What the record of a request for one node gives when it is read in place of the message. -/
theorem StoredAs.parameters (h : StoredAs cfg request start us item)
    (huser : (request "user_id").isSome = true) (hsingle : request.truthy "is_multinode" = false) :
    allocationParameters item = start.parameters cfg request us := by
  have hread := @StoredAs.read cfg request start us item h
  have hkept := @StoredAs.read_kept cfg request start us item h
  have hmultinode : ((request "is_multinode").map Value.truthy).getD false = false := hsingle
  obtain ⟨asked, hasked⟩ := Option.isSome_iff_exists.mp huser
  simp only [allocationParameters, Attributes.natural, Attributes.text, Attributes.truthy,
    Attributes.number, Attributes.texts]
  simp (disch := decide) only [hkept]
  simp (disch := decide) only [hread]
  cases start with
  | initial now expiresAt =>
    simp only [Beginning.record, initialRecord, hasked, Option.getD_some, Attributes.number,
      Attributes.natural, Attributes.text, ne_eq, String.reduceEq, not_false_eq_true,
      Attributes.carryTruthy_of_ne, Attributes.carry_of_ne, Attributes.ofList, List.reverse_cons,
      List.reverse_nil, List.nil_append, List.cons_append, List.lookup_cons, List.lookup_nil,
      String.reduceBEq, BEq.rfl, Attributes.carry_self, Option.or_none, Option.getD_none,
      Attributes.carryTruthy_self,
      Option.map_none, Bool.false_eq_true, if_false, Beginning.parameters, storedParameters,
      allocationParameters, Attributes.truthy, hmultinode, Attributes.texts,
      AllocationParameters.mk.injEq, and_true, true_and]
    refine ⟨?_, ?_, rfl⟩
    · cases request "gpu_count" <;> rfl
    · cases lastWritten us "gpu_type" with
      | none => cases request "gpu_type" <;> rfl
      | some v => cases v <;> rfl
  | created userId now expiresAt =>
    obtain rfl : asked = userId := by
      rw [h.user userId now expiresAt rfl] at hasked
      exact (Option.some.inj hasked).symm
    simp only [Beginning.record, createdRecord, Attributes.number, multinodeFields,
      Attributes.truthy, hmultinode, Bool.false_eq_true, if_false, List.append_nil,
      List.foldl_cons, List.foldl_nil, ne_eq, String.reduceEq, not_false_eq_true,
      Attributes.set_of_ne, Attributes.carry_of_ne, Attributes.ofList, List.reverse_cons,
      List.reverse_nil, List.nil_append, List.cons_append, List.lookup_cons, List.lookup_nil,
      String.reduceBEq, BEq.rfl, Attributes.carry_self, Option.or_none, Option.getD_none,
      Option.map_none,
      Beginning.parameters, storedParameters, allocationParameters, Attributes.natural,
      Attributes.text, hasked, Attributes.texts, AllocationParameters.mk.injEq, and_true, true_and]
    refine ⟨?_, ?_, rfl⟩
    · cases request "gpu_count" <;> rfl
    · cases lastWritten us "gpu_type" with
      | none => cases request "gpu_type" <;> rfl
      | some v => cases v <;> rfl
  | bare =>
    simp only [Beginning.record, Attributes.ofList, List.reverse_cons, List.reverse_nil,
      List.nil_append, List.lookup_cons, List.lookup_nil, String.reduceBEq, Option.or_none,
      Option.getD_none, Option.map_none, Bool.false_eq_true, if_false,
      Option.or_self, Beginning.parameters,
      storedParameters, allocationParameters, Attributes.natural, Attributes.text,
      Attributes.truthy, Attributes.number, Attributes.texts, AllocationParameters.mk.injEq,
      and_true, true_and]
    refine ⟨?_, rfl⟩
    cases lastWritten us "gpu_type" with
    | none => rfl
    | some v => cases v <;> rfl

/-! ### What survives the queue -/

/-- What the beginning of the record keeps of a request. -/
def Beginning.Keeps (cfg : Settings) (request : Attributes) (us : List Update) :
    Beginning → Prop
  | initial _ _ =>
    request.IsOff "preserve_entrypoint" ∧ request.IsUnsetOrTruthy "dockerimage" ∧
    (request.IsUnsetOrTruthy "github_user" ∨ request "github_user" = request "user_id") ∧
    (request "name").isSome = true ∧
    (lastWritten us "disk_name" = none → request.IsUnsetOrTruthy "disk_name") ∧
    (lastWritten us "jupyter_enabled" = none → request.IsOff "jupyter_enabled")
  | created _ _ _ =>
    request "dockerimage" = none ∧
    request.number "duration_hours" cfg.defaultTimeoutHours = request.number "duration_hours" 8
  | bare => False

/-- A request survives the queue: it asks for nothing that its record does not hold, and what
earlier attempts have written to the record since is what it asks for. -/
structure SurvivesQueue (cfg : Settings) (request : Attributes) (start : Beginning)
    (us : List Update) : Prop where
  fastCache : request.IsOff "fast_cache"
  isMultinode : request.IsOff "is_multinode"
  dockerfile : request "dockerfile" = none
  nodeLabels : request "node_labels" = none
  ref : sanitizePytorchRef (request "ref") = "master"
  peerPods : request.texts "multinode_peer_pods" = []
  keeps : start.Keeps cfg request us
  disk : ∀ v, lastWritten us "disk_name" = some v → request "disk_name" = some v
  jupyter : ∀ v, lastWritten us "jupyter_enabled" = some v →
    (request "jupyter_enabled").getD (.flag false) = v
  gpuType : ∀ v, lastWritten us "gpu_type" = some v →
    request.text "gpu_type" "a100" = (Attributes.ofList [("gpu_type", v)]).text "gpu_type" "a100"

theorem or_eq_iff {w x y : Option Value} :
    w.or x = y ↔ (∀ v, w = some v → y = some v) ∧ (w = none → x = y) := by
  cases w <;> simp [eq_comm]

theorem getD_eq_iff {w : Option Value} {d y : Value} :
    w.getD d = y ↔ (∀ v, w = some v → y = v) ∧ (w = none → d = y) := by
  cases w <;> simp [eq_comm]

theorem gpuType_eq_iff {w : Option Value} {t : String} : (match w with
      | some (.text s) => s
      | some _ => "a100"
      | none => t) = t ↔
    ∀ v, w = some v → t = (Attributes.ofList [("gpu_type", v)]).text "gpu_type" "a100" := by
  cases w with
  | none => simp
  | some v => cases v <;> simp [Attributes.text, Attributes.ofList, eq_comm]

/-- An option that is dropped when it is not true reads as the user, if that is what it is. -/
theorem filter_or_eq_iff {v : Option Value} {user : Value} :
    (v.filter Value.truthy).or (some user) = v.or (some user) ↔
      v.filter Value.truthy = v ∨ v = some user := by
  cases v with
  | none => simp
  | some v => cases hv : v.truthy <;> simp [Option.filter, hv, eq_comm]

theorem name_initialRecord_eq_iff :
    initialRecord request 0 "" "" "name" = request "name" ↔ (request "name").isSome = true := by
  have hname : initialRecord request 0 "" "" "name" = some ((request "name").getD
      (.text (toString (request.natural "gpu_count" 1) ++ "x " ++
        (request.text "gpu_type" "A100").toUpper ++ " reservation"))) := by
    simp [initialRecord, Attributes.carryTruthy_of_ne, Attributes.carry_of_ne, Attributes.ofList,
      List.lookup_cons]
  rw [hname]
  cases request "name" <;> simp

/-- The record gives the parameters of the message exactly if the request survives the queue. -/
theorem parameters_eq_iff (h : StoredAs cfg request start us item)
    (huser : (request "user_id").isSome = true) (hsingle : request.truthy "is_multinode" = false) :
    allocationParameters item = allocationParameters request ↔
      SurvivesQueue cfg request start us := by
  rw [h.parameters huser hsingle]
  obtain ⟨user, hasked⟩ := Option.isSome_iff_exists.mp huser
  cases start with
  | initial now expiresAt =>
    simp only [Beginning.parameters, storedParameters, allocationParameters,
      AllocationParameters.mk.injEq, hasked, true_and]
    constructor
    · rintro ⟨hgpu, hcache, hdisk, hmulti, hgithub, hfile, himage, hpreserve, hlabels, href, hname,
        hjupyter, hpeers⟩
      rw [or_eq_iff] at hdisk
      rw [getD_eq_iff] at hjupyter
      exact ⟨hcache.symm, hmulti.symm, hfile.symm, hlabels.symm, href.symm, hpeers.symm,
        ⟨hpreserve.symm, himage, hasked ▸ filter_or_eq_iff.mp hgithub,
          name_initialRecord_eq_iff.mp hname, hdisk.2, fun h => (hjupyter.2 h).symm⟩,
        hdisk.1, hjupyter.1, gpuType_eq_iff.mp hgpu⟩
    · intro h
      obtain ⟨hpreserve, himage, hgithub, hname, hdisk, hjupyter⟩ := h.keeps
      exact ⟨gpuType_eq_iff.mpr h.gpuType, h.fastCache.symm,
        or_eq_iff.mpr ⟨h.disk, hdisk⟩, h.isMultinode.symm,
        filter_or_eq_iff.mpr (hasked ▸ hgithub), h.dockerfile.symm, himage, hpreserve.symm,
        h.nodeLabels.symm, h.ref.symm, name_initialRecord_eq_iff.mpr hname,
        getD_eq_iff.mpr ⟨h.jupyter, fun h => (hjupyter h).symm⟩, h.peerPods.symm⟩
  | created userId now expiresAt =>
    simp only [Beginning.parameters, storedParameters, allocationParameters,
      AllocationParameters.mk.injEq, true_and]
    constructor
    · rintro ⟨hgpu, hcache, hdisk, hmulti, hfile, himage, hlabels, href,
      hduration, hjupyter, hpeers⟩
      rw [Option.getD_or, getD_eq_iff] at hjupyter
      exact ⟨hcache.symm, hmulti.symm, hfile.symm, hlabels.symm, href.symm, hpeers.symm,
        ⟨himage.symm, hduration⟩, (or_eq_iff.mp hdisk).1, hjupyter.1, gpuType_eq_iff.mp hgpu⟩
    · intro h
      obtain ⟨himage, hduration⟩ := h.keeps
      refine ⟨gpuType_eq_iff.mpr h.gpuType, h.fastCache.symm,
        or_eq_iff.mpr ⟨h.disk, fun _ => rfl⟩, h.isMultinode.symm, h.dockerfile.symm,
        himage.symm, h.nodeLabels.symm, h.ref.symm, hduration, ?_, h.peerPods.symm⟩
      rw [Option.getD_or]
      exact getD_eq_iff.mpr ⟨h.jupyter, fun _ => rfl⟩
  | bare =>
    refine ⟨fun heq => ?_, fun h => h.keeps.elim⟩
    have huser := congrArg (·.userId) heq
    simp [Beginning.parameters, storedParameters, allocationParameters, hasked] at huser

end Allocated

/-! ### Every queue history -/

/-- What writes the record of a request: its message, processed any number of times, the sweeps
and monitors, and what ends reservations. -/
inductive QueueParty
  | request
  | sweep
  | monitor (podName reservationId : String) (rounds : ℕ)
  | cancellation (message : Attributes)
  | expiry

/-- The program of a party. -/
def QueueParty.program (cfg : Settings) (request : Attributes) :
    QueueParty → Program Op Op.Res Unit
  | .request => toItsEnd (processReservationRequest cfg request)
  | sweep => Invocation.program cfg .sweep
  | monitor podName reservationId rounds =>
    Invocation.program cfg (.monitor podName reservationId rounds)
  | cancellation message => Invocation.program cfg (.cancellation message)
  | expiry => Invocation.program cfg .expiry

/-- The record of a reservation is left alone. -/
def KeepsRecord (r : String) (w w' : World) : Prop := w'.table.get r = w.table.get r

/-- A call of a party: no reservation is put but that of the request, and none is deleted. -/
def Op.IsQueueing (cfg : Settings) (request : Attributes) : Op → Prop
  | updateItem _ u => u.IsLawful
  | putItem item _ => isReservationKey item.key = true → IsRecordOf cfg request item
  | deleteItem id => isReservationKey id = false
  | _ => True

instance {cfg : Settings} {request : Attributes} : Pervades (Op.IsQueueing cfg request) where
  quiet op h := by cases op <;> first | cases h; done | trivial
  connects _ :=
    { quiet op h := by cases op <;> first | cases h; done | trivial
      update _ hu := hu.toIsLawful
      cache _ user h hkey := by
        rw [h, isReservationKey_sshKeyCacheKey] at hkey
        cases hkey
      deletePod _ := trivial
      createVolume _ _ := trivial
      createPod _ := trivial
      connection _ hu _ := hu }

theorem QueueParty.queueing {cfg : Settings} {request : Attributes} (hkey : request.key ≠ "")
    (hsingle : request.truthy "is_multinode" = false) (party : QueueParty) :
    (party.program cfg request).OnlyCalls (Op.IsQueueing cfg request) := by
  cases party with
  | request => exact
    onlyCalls_toItsEnd (meets_processReservationRequest (fun _ _ hrecord _ => hrecord)
      (fun _ _ => (issues_allocateGpuResources _ _ _).meets) hkey hsingle).issues
  | sweep => exact onlyCalls_toItsEnd issues_processScheduledQueueManagement
  | monitor podName r rounds => exact onlyCalls_toItsEnd (issues_monitorLoop podName rounds)
  | cancellation message => exact onlyCalls_toItsEnd (issues_processCancellationRequest message)
  | expiry => exact onlyCalls_toItsEnd issues_expiryHandler

/-- The record of the request is stored as it began, with updates, or is not there. -/
def IsStored (cfg : Settings) (request : Attributes) (w : World) : Prop :=
  ∀ item, w.table.get request.key = some item → ∃ start us, StoredAs cfg request start us item

theorem StoredAs.update {cfg : Settings} {request : Attributes} {start : Beginning}
    {us : List Update} {item item' : Attributes} (h : StoredAs cfg request start us item)
    {u : Update} (hu : u.IsLawful) (happly : u.apply item = some item') :
    StoredAs cfg request start (us ++ [u]) item' where
  user := h.user
  lawful := List.forall_mem_append.mpr ⟨h.lawful, by simpa using hu⟩
  applied := by
    rw [List.foldlM_append, h.applied]
    simpa using happly

theorem IsRecordOf.storedAs {cfg : Settings} {request item : Attributes}
    (h : IsRecordOf cfg request item) : ∃ start, StoredAs cfg request start [] item := by
  rcases h with ⟨now, expiresAt, rfl⟩ | ⟨userId, now, expiresAt, huser, rfl⟩
  · exact ⟨.initial now expiresAt, fun _ _ _ h => (nomatch h), by simp, rfl⟩
  · refine ⟨.created userId now expiresAt, fun _ _ _ h => ?_, by simp, rfl⟩
    cases h
    exact huser

theorem Op.IsQueueing.isStored {cfg : Settings} {request : Attributes} {op : Op} {w w' : World}
    {res : op.Res} (hr : isReservationKey request.key = true) (hop : op.IsQueueing cfg request)
    (h : op.Answers w res w') (hstored : IsStored cfg request w) : IsStored cfg request w' := by
  rcases h.cases with rfl | heffect
  · exact hstored
  cases op with
  | updateItem id u =>
    obtain ⟨t', ht, rfl⟩ := World.withTable_eq_some heffect
    obtain ⟨item', happly, rfl⟩ := Table.update_eq_some ht
    intro item hitem
    by_cases hid : request.key = id
    · subst hid
      obtain rfl : item' = item := by simpa using hitem
      cases hold : w.table.get request.key with
      | none =>
        rw [hold] at happly
        have happlied : [u].foldlM Update.apply (Beginning.bare.record cfg request) =
          some item' := by
          rw [List.foldlM_cons]
          exact (congrArg (· >>= _) happly).trans rfl
        exact ⟨.bare, [u], fun _ _ _ h => (nomatch h), List.forall_mem_singleton.mpr hop, happlied⟩
      | some old =>
        rw [hold] at happly
        obtain ⟨start, us, h⟩ := hstored old hold
        exact ⟨start, us ++ [u], h.update hop happly⟩
    · exact hstored item ((Table.get_store_of_ne _ hid item').symm.trans hitem)
  | putItem new condition =>
    obtain ⟨t', ht, rfl⟩ := World.withTable_eq_some heffect
    obtain ⟨-, rfl⟩ := Table.put_eq_some ht
    intro item hitem
    by_cases hkey : request.key = new.key
    · have hitem : (w.table.store new.key new).get request.key = some item := hitem
      rw [hkey, Table.get_store_self] at hitem
      cases hitem
      obtain ⟨start, h⟩ := (hop (hkey ▸ hr)).storedAs
      exact ⟨start, [], h⟩
    · exact hstored item ((Table.get_store_of_ne _ hkey new).symm.trans hitem)
  | deleteItem id =>
    obtain ⟨t', ht, rfl⟩ := World.withTable_eq_some heffect
    cases ht
    intro item hitem
    refine hstored item ((Table.get_delete_of_ne _ ?_).symm.trans hitem)
    rintro rfl
    rw [hop] at hr
    cases hr
  | createPod name p =>
    obtain ⟨-, rfl⟩ := World.createPod_eq_some heffect
    exact hstored
  | patchPod name labels annotations =>
    obtain ⟨p, -, rfl⟩ := World.modifyPod_eq_some heffect
    exact hstored
  | deletePod name =>
    obtain ⟨p, -, rfl⟩ := World.modifyPod_eq_some heffect
    exact hstored
  | _ => cases heffect; exact hstored

theorem user_of_valid {cfg : Settings} {request : Attributes}
    (h : validateReservationRequest cfg request = none) : (request "user_id").isSome = true := by
  cases huser : request "user_id" with
  | none => simp [validateReservationRequest, huser] at h
  | some user => rfl

/-- In every history of a valid request for one node, its record is stored as it began with
updates, and a sweep that reads it allocates what the message asked for exactly if the request
survives the queue. -/
theorem queuedParameters_iff {cfg : Settings} {request : Attributes} {ι : Type} [DecidableEq ι]
    {party : ι → QueueParty} {w : World} {es : List (Occurrence ι)}
    {T : System ι Op Op.Res Unit World} (hbody : request.NamesReservation)
    (hvalid : validateReservationRequest cfg request = none)
    (hsingle : request.truthy "is_multinode" = false) (hnew : w.table.get request.key = none)
    (h : History Op.Answers (KeepsRecord request.key) ⟨w, fun i => (party i).program cfg request⟩
      es T) {item : Attributes} (hitem : T.state.table.get request.key = some item) :
    (∃ start us, StoredAs cfg request start us item) ∧
      ∀ start us, StoredAs cfg request start us item →
        (allocationParameters item = allocationParameters request ↔
          SurvivesQueue cfg request start us) := by
  constructor
  · refine h.holds (K := IsStored cfg request) (fun item hitem => ?_) (fun e he hstored => ?_) item
      hitem
    · rw [hnew] at hitem
      cases hitem
    · cases hcall : e.call with
      | none =>
        have hkept : e.after.table.get request.key = e.before.table.get request.key :=
          h.changed he hcall
        exact fun item hitem => hstored item (hkept ▸ hitem)
      | some c =>
        obtain ⟨i, op, res⟩ := c
        have hop := h.calls (fun i => (party i).queueing hbody.1 hsingle) he hcall
        exact hop.isStored hbody.2 (h.served he hcall) hstored
  · exact fun start us hstored => parameters_eq_iff hstored (user_of_valid hvalid) hsingle

/-- The request for a GPU of a type without nodes, at a PyTorch ref, and a sweep. -/
def requestAtRef : Attributes := requestWithoutNodes.set "ref" (.text "viable/strict")

/-- The processing of a request and a sweep. -/
def requestAndSweep : Bool → QueueParty
  | false => .request
  | true => .sweep

/-- The request without nodes, before it is processed. -/
def beforeQueueing : System Bool Op Op.Res Unit World :=
  ⟨⟨∅, ∅, [], ∅⟩, fun i => (requestAndSweep i).program .usual requestWithoutNodes⟩

/-- The same request at a PyTorch ref. -/
def beforeQueueingAtRef : System Bool Op Op.Res Unit World :=
  ⟨⟨∅, ∅, [], ∅⟩, fun i => (requestAndSweep i).program .usual requestAtRef⟩

/-- The request is processed until it is queued. -/
def queuedForLater : List (Turn Bool World) := List.replicate 24 (.call false)

/-- The record of a request that has been queued. -/
theorem queuedParameters_withoutNodes :
    ∃ item, (play Script.fine.serve beforeQueueing queuedForLater).2.state.table.get
        requestWithoutNodes.key = some item ∧
      (∃ start us, StoredAs .usual requestWithoutNodes start us item) ∧
        ∀ start us, StoredAs .usual requestWithoutNodes start us item →
          (allocationParameters item = allocationParameters requestWithoutNodes ↔
            SurvivesQueue .usual requestWithoutNodes start us) := by
  have hstored : ((play Script.fine.serve beforeQueueing queuedForLater).2.state.table.get
      requestWithoutNodes.key).isSome = true := by decide +kernel
  obtain ⟨item, hitem⟩ := Option.isSome_iff_exists.mp hstored
  exact ⟨item, hitem, queuedParameters_iff (by decide) (by decide +kernel) (by decide) rfl
    (History.of_play Script.fine.answers_serve beforeQueueing queuedForLater
      (by simp [queuedForLater])) hitem⟩

/-- A request at a PyTorch ref that has been queued is allocated at `master`. -/
theorem queuedAtRef_parameters_ne :
    validateReservationRequest .usual requestAtRef = none ∧
    requestAtRef.truthy "is_multinode" = false ∧
    History Op.Answers (KeepsRecord requestAtRef.key) beforeQueueingAtRef
      (play Script.fine.serve beforeQueueingAtRef queuedForLater).1
      (play Script.fine.serve beforeQueueingAtRef queuedForLater).2 ∧
    ∃ item, (play Script.fine.serve beforeQueueingAtRef queuedForLater).2.state.table.get
        requestAtRef.key = some item ∧ item.isOneOf "status" ["queued"] = true ∧
      allocationParameters item ≠ allocationParameters requestAtRef := by
  refine ⟨by decide +kernel, by decide, History.of_play Script.fine.answers_serve
    beforeQueueingAtRef queuedForLater (by simp [queuedForLater]), ?_⟩
  have hstored : ((play Script.fine.serve beforeQueueingAtRef queuedForLater).2.state.table.get
      requestAtRef.key).any (fun item => item.isOneOf "status" ["queued"] &&
        (allocationParameters item).ref != (allocationParameters requestAtRef).ref) = true := by
    decide +kernel
  obtain ⟨item, hitem, hqueued⟩ := (Option.any_eq_true _ _).mp hstored
  rw [Bool.and_eq_true, bne_iff_ne] at hqueued
  exact ⟨item, hitem, hqueued.1, fun heq => hqueued.2 (congrArg (·.ref) heq)⟩

end CiInfra.GpuDev
