import CiInfra.Lib.Characters
import Mathlib.Data.List.Basic
import Mathlib.Data.List.Count

/-!
# Waiting for reservations

The client polls the records of its reservations until all of them can be connected to, or until it
gives up on them. What the nodes of a multinode reservation amount to is computed by a rule of its
own, but the branch that prints it also decides whether the rule for a single node is applied after
it. When does the wait end as the first rule says?
-/

namespace CiInfra.GpuDev.ClientWaits

/-! ### Readings -/

/-- A record, as far as the verdict depends on it. The command may be null. -/
structure Record where
  reservationId : String
  status : Option String
  sshCommand : Option (Option String)
  deriving DecidableEq

/-- What `get_item` gives for a reservation. -/
inductive Reading
  | missing
  | unreadable
  | found (r : Record)
  deriving DecidableEq

/-- An entry of `node_details`. -/
structure Node where
  status : String
  reservation : Option Record

/-- The entry for a reading. A single reservation that is missing is passed over. -/
def Reading.node (isMultinode : Bool) : Reading → Option Node
  | .missing => if isMultinode then some ⟨"unknown", none⟩ else none
  | .unreadable => some ⟨"error", none⟩
  | .found r => some ⟨r.status.getD "unknown", some r⟩

/-- An entry of `all_reservations`. -/
def Reading.record : Reading → Option Record
  | .found r => some r
  | _ => none

/-- The command can be used: it is neither the placeholder nor a name within the cluster. A null has
no `endswith`, which raises an error. -/
def Record.sshReady (r : Record) : Option Bool :=
  (r.sshCommand.getD (some "ssh user@pending")).map fun command =>
    command ≠ "ssh user@pending" ∧ ¬ ".cluster.local".toList <:+ command.toList

/-- The test by which nodes are counted as ready. -/
def Node.isReady (node : Node) : Option Bool :=
  match node.reservation with
  | some r => if node.status = "active" then r.sshReady else some false
  | none => some false

/-- `nodes_ready`. -/
def nodesReady : List Node → Option ℕ
  | [] => some 0
  | node :: nodes =>
    node.isReady.bind fun ready => (nodesReady nodes).map fun n => if ready then n + 1 else n

/-! ### The status of all nodes -/

/-- `aggregate_status`. -/
inductive Aggregate
  | failed
  | active
  | preparing
  | queued
  | creatingServer
  | pending
  deriving DecidableEq

/-- The rule for multinode reservations. -/
def multinodeStatus (totalNodes : ℕ) (statuses : List String) : Aggregate :=
  let ended := statuses.count "failed" + statuses.count "cancelled"
  if totalNodes ≤ ended then .failed
  else if statuses.count "active" = totalNodes then .active
  else if statuses.count "active" + statuses.count "preparing" = totalNodes then
    if 0 < statuses.count "preparing" then .preparing else .active
  else if 0 < statuses.count "queued" then .queued
  else if totalNodes / 2 < ended then .failed
  else if 0 < statuses.count "preparing" then .preparing
  else .pending

/-- The rule for single nodes. -/
def singleStatus (totalNodes : ℕ) (statuses : List String) : Aggregate :=
  if 0 < statuses.count "failed" ∨ 0 < statuses.count "cancelled" then .failed
  else if statuses.count "active" = totalNodes then .active
  else if 0 < statuses.count "preparing" then .preparing
  else if 0 < statuses.count "queued" then .queued
  else if 0 < statuses.count "creating_server" then .creatingServer
  else .pending

/-- A poll's verdict, if it has one. -/
inductive Verdict
  | returned (reservations : List Record)
  | failed
  | error
  deriving DecidableEq

/-- A call of `_wait_for_reservations_completion`, and what its polls read. It is for one
reservation unless it is for a multinode one. -/
structure Wait where
  reservationIds : List String
  isMultinode : Bool
  polls : List (List Reading)
  single : isMultinode = false → reservationIds.length = 1
  length_eq : ∀ poll ∈ polls, poll.length = reservationIds.length

namespace Wait

variable (w : Wait)

/-- `total_nodes`. -/
def totalNodes : ℕ := w.reservationIds.length

/-- `node_details`. -/
def nodeDetails (poll : List Reading) : List Node := poll.filterMap (Reading.node w.isMultinode)

/-- `statuses`. -/
def statuses (poll : List Reading) : List String := (w.nodeDetails poll).map Node.status

/-- `all_reservations`. -/
def allReservations (poll : List Reading) : List Record := poll.filterMap Reading.record

/-- The status that a poll computes. The rule for single nodes belongs to the test whether to print
the outcome of the other one. -/
def aggregateStatus (verbose : Bool) (lastStatus : Option Aggregate) (poll : List Reading) :
    Aggregate :=
  if w.isMultinode ∧ verbose ∧ some (multinodeStatus w.totalNodes (w.statuses poll)) ≠ lastStatus
  then multinodeStatus w.totalNodes (w.statuses poll)
  else singleStatus w.totalNodes (w.statuses poll)

/-- What is done at a status. -/
def verdictAt (aggregate : Aggregate) (poll : List Reading) : Option Verdict :=
  match aggregate with
  | .failed => some .failed
  | .active =>
    if w.isMultinode then
      match nodesReady (w.nodeDetails poll) with
      | some ready => if ready = w.totalNodes then some (.returned (allReservations poll)) else none
      | none => some .error
    else
      match allReservations poll with
      | [] => some .error
      | r :: _ =>
        match r.sshReady with
        | some true => some (.returned (allReservations poll))
        | some false => none
        | none => some .error
  | _ => none

/-- `last_status` after a poll that goes on: a status without a message is not remembered. -/
def remembered (aggregate : Aggregate) (lastStatus : Option Aggregate) : Option Aggregate :=
  if w.isMultinode then if aggregate = .preparing then lastStatus else some aggregate
  else if aggregate = .active ∨ aggregate = .failed then lastStatus
  else some aggregate

/-- The loop over the polls: the poll with a verdict, and the verdict. Without one, the wait ends
when its time is over, or when it is interrupted. -/
def loop (verbose : Bool) : Option Aggregate → List (List Reading) →
    Option (List Reading × Verdict)
  | _, [] => none
  | lastStatus, poll :: polls =>
    let aggregate := w.aggregateStatus verbose lastStatus poll
    match w.verdictAt aggregate poll with
    | some verdict => some (poll, verdict)
    | none => loop verbose (w.remembered aggregate lastStatus) polls

/-- `_wait_for_reservations_completion`. -/
def run (verbose : Bool) : Option (List Reading × Verdict) := w.loop verbose none w.polls

/-- What is returned. -/
def result (verbose : Bool) : Option (List Record) :=
  match w.run verbose with
  | some (_, .returned reservations) => some reservations
  | _ => none

/-! ### The right verdict -/

/-- How many nodes have one of two statuses. -/
def ended (poll : List Reading) : ℕ :=
  (w.statuses poll).count "failed" + (w.statuses poll).count "cancelled"

/-- All nodes are failed or cancelled, or more than half of them are and none is queued. -/
def StatedFailure (poll : List Reading) : Prop :=
  w.totalNodes ≤ w.ended poll ∨
    w.totalNodes / 2 < w.ended poll ∧ (w.statuses poll).count "queued" = 0

/-- The reading is active, with a command that can be used. -/
def IsConnectable (reading : Reading) : Prop :=
  ∃ r command, reading = .found r ∧ r.status = some "active" ∧ r.sshCommand = some (some command) ∧
    command ≠ "ssh user@pending" ∧ ¬ ".cluster.local".toList <:+ command.toList

/-- The wait ends with the right verdict. -/
structure EndsRight : Prop where
  same : w.result true = w.result false
  failed : w.isMultinode = true → ∀ verbose poll, w.run verbose = some (poll, .failed) →
    w.StatedFailure poll
  returned : ∀ verbose poll reservations, w.run verbose = some (poll, .returned reservations) →
    poll = reservations.map .found ∧ ∀ reading ∈ poll, IsConnectable reading

/-- A node has failed or has been cancelled only if the rule for multinode reservations takes that
for a failure. -/
def Agrees (poll : List Reading) : Prop :=
  poll ≠ [] ∧ (0 < w.ended poll → w.StatedFailure poll)

/-- The wait ends with a poll by the rule for multinode reservations: the nodes have failed, or all
are active, and their commands can be used, or one is null. -/
def Ends (poll : List Reading) : Prop :=
  w.StatedFailure poll ∨ (w.statuses poll).count "active" = w.totalNodes ∧
    ((∀ reading ∈ poll, IsConnectable reading) ∨
      ∃ r, .found r ∈ poll ∧ r.sshCommand = some none)

/-- The rules agree up to the poll that ends the wait. -/
def AgreesThroughout : Prop :=
  ∀ before poll after, w.polls = before ++ poll :: after → (∀ p ∈ before, ¬ w.Ends p) →
    w.Agrees poll

/-! ### The two rules -/

section Rules

variable {statuses : List String} {n : ℕ}

theorem count_add_count_le (statuses : List String) :
    statuses.count "active" + statuses.count "preparing" + statuses.count "queued" +
      (statuses.count "failed" + statuses.count "cancelled") ≤ statuses.length := by
  induction statuses with
  | nil => simp
  | cons status statuses ih =>
    simp only [List.count_cons, List.length_cons, beq_iff_eq]
    split_ifs <;> simp_all <;> omega

theorem multinodeStatus_eq_failed_iff (hlen : statuses.length = n) :
    multinodeStatus n statuses = .failed ↔
      n ≤ statuses.count "failed" + statuses.count "cancelled" ∨
        n / 2 < statuses.count "failed" + statuses.count "cancelled" ∧
          statuses.count "queued" = 0 := by
  have hle := count_add_count_le statuses
  unfold multinodeStatus
  simp only
  split_ifs <;> simp only [true_iff, false_iff] <;> omega

theorem multinodeStatus_eq_active_iff (hlen : statuses.length = n) (hpos : 0 < n) :
    multinodeStatus n statuses = .active ↔ statuses.count "active" = n := by
  have hle := count_add_count_le statuses
  unfold multinodeStatus
  simp only
  split_ifs <;> simp only [true_iff, false_iff] <;> omega

theorem singleStatus_eq_failed_iff :
    singleStatus n statuses = .failed ↔
      0 < statuses.count "failed" + statuses.count "cancelled" := by
  unfold singleStatus
  split_ifs <;> simp only [true_iff, false_iff] <;> omega

theorem singleStatus_eq_active_iff (hlen : statuses.length ≤ n) :
    singleStatus n statuses = .active ↔ statuses.count "active" = n := by
  have hle := count_add_count_le statuses
  unfold singleStatus
  split_ifs <;> simp only [true_iff, false_iff] <;> omega

end Rules

/-! ### One poll -/

variable {w : Wait} {poll : List Reading} {reservations : List Record}

theorem length_statuses_le : (w.statuses poll).length ≤ poll.length := by
  rw [statuses, List.length_map]
  exact List.length_filterMap_le _ _

theorem isSome_node (hmulti : w.isMultinode = true) (reading : Reading) :
    (reading.node w.isMultinode).isSome = true := by
  cases reading <;> simp [Reading.node, hmulti]

theorem length_statuses (hmulti : w.isMultinode = true) :
    (w.statuses poll).length = poll.length := by
  rw [statuses, List.length_map, nodeDetails, List.length_filterMap_eq_countP]
  exact List.countP_eq_length.mpr fun reading _ => isSome_node hmulti reading

theorem sshReady_eq_some_true_iff {r : Record} :
    r.sshReady = some true ↔ ∃ command, r.sshCommand = some (some command) ∧
      command ≠ "ssh user@pending" ∧ ¬ ".cluster.local".toList <:+ command.toList := by
  rw [Record.sshReady, Option.map_eq_some_iff]
  constructor
  · rintro ⟨command, hcommand, hready⟩
    have hready := of_decide_eq_true hready
    cases hssh : r.sshCommand with
    | none =>
      rw [hssh, Option.getD_none] at hcommand
      exact absurd (Option.some.inj hcommand).symm hready.1
    | some given =>
      rw [hssh, Option.getD_some] at hcommand
      exact ⟨command, congrArg some hcommand, hready⟩
  · rintro ⟨command, hssh, hready⟩
    rw [hssh]
    exact ⟨command, rfl, decide_eq_true hready⟩

theorem sshReady_eq_none_iff {r : Record} : r.sshReady = none ↔ r.sshCommand = some none := by
  rw [Record.sshReady, Option.map_eq_none_iff]
  cases r.sshCommand with
  | none => exact iff_of_false (by simp) (by simp)
  | some given => rw [Option.getD_some, Option.some.injEq]

theorem status_of_getD {r : Record} (h : r.status.getD "unknown" = "active") :
    r.status = some "active" := by
  cases hs : r.status with
  | none =>
    rw [hs] at h
    exact absurd h (by decide)
  | some status =>
    rw [hs] at h
    exact congrArg some h

/-- A node is ready only if its reservation can be connected to. -/
theorem isConnectable_of_isReady {node : Node} {reading : Reading}
    (hnode : reading.node w.isMultinode = some node) (hready : node.isReady = some true) :
    IsConnectable reading := by
  cases reading with
  | missing =>
    simp only [Reading.node] at hnode
    split_ifs at hnode
    rw [← Option.some.inj hnode] at hready
    cases hready
  | unreadable =>
    rw [← Option.some.inj hnode] at hready
    cases hready
  | found r =>
    rw [← Option.some.inj hnode] at hready
    simp only [Node.isReady] at hready
    split_ifs at hready with hactive
    · obtain ⟨command, hssh, hcommand⟩ := sshReady_eq_some_true_iff.mp hready
      exact ⟨r, command, rfl, status_of_getD hactive, hssh, hcommand⟩
    · cases hready

theorem isReady_of_isConnectable {reading : Reading} (h : IsConnectable reading) :
    ∃ node, reading.node w.isMultinode = some node ∧ node.isReady = some true := by
  obtain ⟨r, command, rfl, hstatus, hssh, hcommand⟩ := h
  refine ⟨_, rfl, ?_⟩
  have hready : r.sshReady = some true := sshReady_eq_some_true_iff.mpr ⟨command, hssh, hcommand⟩
  simp only [Node.isReady, hstatus, Option.getD_some, if_true, hready]

/-- Counting the ready nodes fails only at a null command. -/
theorem sshCommand_of_isReady {node : Node} {reading : Reading}
    (hnode : reading.node w.isMultinode = some node) (hready : node.isReady = none) :
    ∃ r, reading = .found r ∧ r.sshCommand = some none := by
  cases reading with
  | missing =>
    simp only [Reading.node] at hnode
    split_ifs at hnode
    rw [← Option.some.inj hnode] at hready
    cases hready
  | unreadable =>
    rw [← Option.some.inj hnode] at hready
    cases hready
  | found r =>
    rw [← Option.some.inj hnode] at hready
    simp only [Node.isReady] at hready
    split_ifs at hready
    exact ⟨r, rfl, sshReady_eq_none_iff.mp hready⟩

/-- As many nodes are ready as there are only if every one is. -/
theorem nodesReady_le {nodes : List Node} {n : ℕ} (h : nodesReady nodes = some n) :
    n ≤ nodes.length ∧ (n = nodes.length → ∀ node ∈ nodes, node.isReady = some true) := by
  induction nodes generalizing n with
  | nil =>
    rw [← Option.some.inj h]
    exact ⟨Nat.le_refl _, fun _ node hnode => by cases hnode⟩
  | cons node nodes ih =>
    obtain ⟨ready, hready, h⟩ := Option.bind_eq_some_iff.mp h
    obtain ⟨k, hk, rfl⟩ := Option.map_eq_some_iff.mp h
    obtain ⟨hle, hall⟩ := ih hk
    rw [List.length_cons]
    cases ready with
    | false =>
      refine ⟨Nat.le_succ_of_le hle, fun heq => ?_⟩
      have hk' : k = nodes.length + 1 := heq
      omega
    | true =>
      refine ⟨Nat.succ_le_succ hle, fun heq => ?_⟩
      have hk' : k = nodes.length := Nat.succ.inj heq
      exact List.forall_mem_cons.mpr ⟨hready, hall hk'⟩

theorem nodesReady_of_forall {nodes : List Node} (h : ∀ node ∈ nodes, node.isReady = some true) :
    nodesReady nodes = some nodes.length := by
  induction nodes with
  | nil => rfl
  | cons node nodes ih =>
    rw [List.forall_mem_cons] at h
    rw [nodesReady, h.1, ih h.2]
    rfl

theorem nodesReady_eq_none_iff {nodes : List Node} :
    nodesReady nodes = none ↔ ∃ node ∈ nodes, node.isReady = none := by
  induction nodes with
  | nil => simp [nodesReady]
  | cons node nodes ih =>
    rw [nodesReady, List.exists_mem_cons_iff, ← ih]
    cases node.isReady with
    | none => simp
    | some ready => simp

theorem nodesReady_eq_some_length_iff (hmulti : w.isMultinode = true) :
    nodesReady (w.nodeDetails poll) = some poll.length ↔
      ∀ reading ∈ poll, IsConnectable reading := by
  have hlen : (w.nodeDetails poll).length = poll.length := by
    rw [← length_statuses hmulti, statuses, List.length_map]
  constructor
  · intro hready reading hreading
    have hall := (nodesReady_le hready).2 hlen.symm
    cases hnode : reading.node w.isMultinode with
    | none =>
      have hsome := isSome_node hmulti reading
      rw [hnode] at hsome
      cases hsome
    | some node =>
      exact isConnectable_of_isReady hnode
        (hall node (List.mem_filterMap.mpr ⟨reading, hreading, hnode⟩))
  · intro hall
    rw [← hlen]
    refine nodesReady_of_forall fun node hmem => ?_
    obtain ⟨reading, hreading, hnode⟩ := List.mem_filterMap.mp hmem
    obtain ⟨node', hnode', hready⟩ := isReady_of_isConnectable (w := w) (hall reading hreading)
    rw [hnode] at hnode'
    rw [Option.some.inj hnode']
    exact hready

theorem map_found_of_forall (h : ∀ reading ∈ poll, IsConnectable reading) :
    poll = (allReservations poll).map .found := by
  induction poll with
  | nil => rfl
  | cons reading poll ih =>
    rw [List.forall_mem_cons] at h
    obtain ⟨⟨r, _, rfl, _⟩, h⟩ := h
    exact congrArg (.found r :: ·) (ih h)

theorem verdictAt_eq_none {a : Aggregate} (hfailed : a ≠ .failed) (hactive : a ≠ .active) :
    w.verdictAt a poll = none := by
  cases a with
  | failed => exact absurd rfl hfailed
  | active => exact absurd rfl hactive
  | _ => rfl

/-- What is done depends on whether the status is a failure, and whether it is active. -/
theorem verdictAt_congr {a b : Aggregate} (hfailed : a = .failed ↔ b = .failed)
    (hactive : a = .active ↔ b = .active) : w.verdictAt a poll = w.verdictAt b poll := by
  by_cases ha : a = .failed
  · rw [ha, hfailed.mp ha]
  by_cases ha' : a = .active
  · rw [ha', hactive.mp ha']
  rw [verdictAt_eq_none ha ha', verdictAt_eq_none (mt hfailed.mpr ha) (mt hactive.mpr ha')]

theorem eq_failed_of_verdictAt {a : Aggregate} (h : w.verdictAt a poll = some .failed) :
    a = .failed := by
  cases a with
  | active =>
    simp only [verdictAt] at h
    split at h
    · split at h
      · split_ifs at h
        cases h
      · cases h
    · split at h
      · cases h
      · split at h <;> cases h
  | failed => rfl
  | _ => cases h

theorem eq_active_of_verdictAt {a : Aggregate}
    (h : w.verdictAt a poll = some (.returned reservations)) : a = .active := by
  cases a with
  | active => rfl
  | _ => cases h

/-- The reservations are returned only if all of them can be connected to. -/
theorem isConnectable_of_verdictAt {verbose : Bool} {lastStatus : Option Aggregate}
    (hlen : poll.length = w.totalNodes)
    (h : w.verdictAt (w.aggregateStatus verbose lastStatus poll) poll =
      some (.returned reservations)) :
    poll = reservations.map .found ∧ ∀ reading ∈ poll, IsConnectable reading := by
  have hactive := eq_active_of_verdictAt h
  rw [hactive] at h
  simp only [verdictAt] at h
  split at h
  case isTrue hmulti =>
    split at h
    case h_1 ready hready =>
      split_ifs at h with heq
      rw [← Verdict.returned.inj (Option.some.inj h)]
      rw [heq, ← hlen] at hready
      have hall := (nodesReady_eq_some_length_iff hmulti).mp hready
      exact ⟨map_found_of_forall hall, hall⟩
    case h_2 => cases h
  case isFalse hmulti =>
    have hmulti : w.isMultinode = false := Bool.eq_false_iff.mpr hmulti
    have htotal : w.totalNodes = 1 := w.single hmulti
    rw [aggregateStatus, if_neg (by simp [hmulti]), singleStatus_eq_active_iff
      (Nat.le_trans length_statuses_le (Nat.le_of_eq hlen)), htotal] at hactive
    obtain ⟨reading, rfl⟩ := List.length_eq_one_iff.mp (hlen.trans htotal)
    cases reading with
    | missing => cases h
    | unreadable => cases h
    | found r =>
      have hstatus : r.status = some "active" := by
        refine status_of_getD ?_
        have hmem := List.count_pos_iff.mp (hactive ▸ Nat.one_pos)
        exact (List.mem_singleton.mp hmem).symm
      cases hready : r.sshReady with
      | none =>
        simp only [allReservations, Reading.record, List.filterMap_cons, List.filterMap_nil,
          hready] at h
        cases h
      | some ready =>
        cases ready with
        | false =>
          simp only [allReservations, Reading.record, List.filterMap_cons, List.filterMap_nil,
            hready] at h
          cases h
        | true =>
          obtain ⟨command, hssh, hcommand⟩ := sshReady_eq_some_true_iff.mp hready
          have hall : ∀ reading ∈ [Reading.found r], IsConnectable reading :=
            List.forall_mem_singleton.mpr ⟨r, command, rfl, hstatus, hssh, hcommand⟩
          simp only [allReservations, Reading.record, List.filterMap_cons, List.filterMap_nil,
            hready] at h
          rw [← Verdict.returned.inj (Option.some.inj h)]
          exact ⟨rfl, hall⟩

/-! ### The rule for multinode reservations -/

/-- What is done at the status of that rule. -/
def statedVerdict (w : Wait) (poll : List Reading) : Option Verdict :=
  w.verdictAt (multinodeStatus w.totalNodes (w.statuses poll)) poll

theorem totalNodes_pos (hlen : poll.length = w.totalNodes) (hagree : w.Agrees poll) :
    0 < w.totalNodes :=
  hlen ▸ List.length_pos_iff.mpr hagree.1

/-- Where the rules agree, it does not matter which one is applied last. -/
theorem verdictAt_aggregateStatus {verbose : Bool} {lastStatus : Option Aggregate}
    (hmulti : w.isMultinode = true) (hlen : poll.length = w.totalNodes)
    (hagree : w.Agrees poll) :
    w.verdictAt (w.aggregateStatus verbose lastStatus poll) poll = w.statedVerdict poll := by
  have hpos := totalNodes_pos hlen hagree
  have hstatuses : (w.statuses poll).length = w.totalNodes := (length_statuses hmulti).trans hlen
  rw [aggregateStatus]
  split_ifs
  · rfl
  · refine verdictAt_congr ?_ ?_
    · rw [singleStatus_eq_failed_iff, multinodeStatus_eq_failed_iff hstatuses]
      constructor
      · exact hagree.2
      · rintro (hall | ⟨hmost, -⟩)
        · exact Nat.lt_of_lt_of_le hpos hall
        · exact Nat.lt_of_le_of_lt (Nat.zero_le _) hmost
    · rw [singleStatus_eq_active_iff (Nat.le_of_eq hstatuses),
        multinodeStatus_eq_active_iff hstatuses hpos]

/-- Among active nodes, a null command is all it takes for the count to fail. -/
theorem nodesReady_eq_none_of_active (hactive : ∀ status ∈ w.statuses poll, "active" = status) :
    nodesReady (w.nodeDetails poll) = none ↔ ∃ r, .found r ∈ poll ∧ r.sshCommand = some none := by
  rw [nodesReady_eq_none_iff]
  constructor
  · rintro ⟨node, hnode, hready⟩
    obtain ⟨reading, hreading, hnode⟩ := List.mem_filterMap.mp hnode
    obtain ⟨r, rfl, hssh⟩ := sshCommand_of_isReady hnode hready
    exact ⟨r, hreading, hssh⟩
  · rintro ⟨r, hr, hssh⟩
    have hnode : (⟨r.status.getD "unknown", some r⟩ : Node) ∈ w.nodeDetails poll :=
      List.mem_filterMap.mpr ⟨_, hr, rfl⟩
    refine ⟨_, hnode, ?_⟩
    have hstatus : r.status.getD "unknown" = "active" :=
      (hactive _ (List.mem_map_of_mem hnode)).symm
    simp only [Node.isReady, hstatus, if_true]
    exact sshReady_eq_none_iff.mpr hssh

theorem statedVerdict_isSome_iff (hmulti : w.isMultinode = true)
    (hlen : poll.length = w.totalNodes) (hpos : 0 < w.totalNodes) :
    (w.statedVerdict poll).isSome = true ↔ w.Ends poll := by
  have hstatuses : (w.statuses poll).length = w.totalNodes := (length_statuses hmulti).trans hlen
  by_cases hfailed : w.StatedFailure poll
  · have hstatus := (multinodeStatus_eq_failed_iff hstatuses).mpr hfailed
    rw [statedVerdict, hstatus]
    exact iff_of_true rfl (Or.inl hfailed)
  rw [Ends, or_iff_right hfailed, statedVerdict]
  have hne : multinodeStatus w.totalNodes (w.statuses poll) ≠ .failed :=
    mt (multinodeStatus_eq_failed_iff hstatuses).mp hfailed
  by_cases hactive : (w.statuses poll).count "active" = w.totalNodes
  · rw [(multinodeStatus_eq_active_iff hstatuses hpos).mpr hactive, and_iff_right hactive]
    have hall := List.count_eq_length.mp (hactive.trans hstatuses.symm)
    rw [← nodesReady_eq_none_of_active hall, ← nodesReady_eq_some_length_iff hmulti, hlen]
    simp only [verdictAt, hmulti, if_true]
    cases hready : nodesReady (w.nodeDetails poll) with
    | none => exact iff_of_true rfl (Or.inr rfl)
    | some ready =>
      simp only [Option.some.injEq, reduceCtorEq, or_false]
      split_ifs with heq
      · exact iff_of_true rfl heq
      · exact iff_of_false Bool.false_ne_true heq
  · have hne' := mt (multinodeStatus_eq_active_iff hstatuses hpos).mp hactive
    rw [verdictAt_eq_none hne hne']
    exact iff_of_false Bool.false_ne_true fun h => hactive h.1

/-! ### The polls -/

variable {verbose : Bool} {lastStatus : Option Aggregate}

/-- A poll that ends the loop has its verdict at some status that was remembered. -/
theorem exists_of_loop {polls : List (List Reading)} {verdict : Verdict}
    (h : w.loop verbose lastStatus polls = some (poll, verdict)) :
    poll ∈ polls ∧ ∃ lastStatus,
      w.verdictAt (w.aggregateStatus verbose lastStatus poll) poll = some verdict := by
  induction polls generalizing lastStatus with
  | nil => cases h
  | cons next polls ih =>
    simp only [loop] at h
    split at h
    case h_1 verdict' hverdict =>
      obtain ⟨rfl, rfl⟩ := Prod.mk.inj (Option.some.inj h)
      exact ⟨List.mem_cons_self, lastStatus, hverdict⟩
    case h_2 =>
      obtain ⟨hmem, hverdict⟩ := ih h
      exact ⟨List.mem_cons_of_mem next hmem, hverdict⟩

/-- A wait for a single reservation prints nothing about the status. -/
theorem loop_eq_of_single {polls : List (List Reading)} (hsingle : w.isMultinode = false) :
    w.loop verbose lastStatus polls = polls.findSome? fun poll =>
      (w.verdictAt (singleStatus w.totalNodes (w.statuses poll)) poll).map (poll, ·) := by
  induction polls generalizing lastStatus with
  | nil => rfl
  | cons poll polls ih =>
    have hstatus : w.aggregateStatus verbose lastStatus poll =
        singleStatus w.totalNodes (w.statuses poll) :=
      if_neg fun h => absurd (hsingle.symm.trans h.1) Bool.false_ne_true
    simp only [loop, hstatus, List.findSome?_cons]
    cases w.verdictAt (singleStatus w.totalNodes (w.statuses poll)) poll with
    | none => exact ih
    | some verdict => rfl

/-- While the rules agree, the loop ends with the first verdict by the rule for multinode
reservations. -/
theorem loop_eq_findSome? {polls : List (List Reading)} (hmulti : w.isMultinode = true)
    (hlen : ∀ poll ∈ polls, poll.length = w.totalNodes)
    (hagree : ∀ before poll after, polls = before ++ poll :: after →
      (∀ p ∈ before, ¬ w.Ends p) → w.Agrees poll) :
    w.loop verbose lastStatus polls =
      polls.findSome? fun poll => (w.statedVerdict poll).map (poll, ·) := by
  induction polls generalizing lastStatus with
  | nil => rfl
  | cons poll polls ih =>
    rw [List.forall_mem_cons] at hlen
    have hfirst := hagree [] poll polls rfl fun _ hp => absurd hp List.not_mem_nil
    simp only [loop, verdictAt_aggregateStatus hmulti hlen.1 hfirst, List.findSome?_cons]
    cases hverdict : w.statedVerdict poll with
    | some verdict => rfl
    | none =>
      have hends : ¬ w.Ends poll := by
        rw [← statedVerdict_isSome_iff hmulti hlen.1 (totalNodes_pos hlen.1 hfirst), hverdict]
        exact Bool.false_ne_true
      refine ih hlen.2 fun before next after heq hbefore => ?_
      exact hagree (poll :: before) next after (congrArg (poll :: ·) heq)
        (List.forall_mem_cons.mpr ⟨hends, hbefore⟩)

/-- When nothing is printed, the rule for single nodes has the last word. So the failures have to be
stated ones. -/
theorem statedFailure_of_loop {polls before after : List (List Reading)}
    (hmulti : w.isMultinode = true) (hpos : 0 < w.totalNodes)
    (hlen : ∀ poll ∈ polls, poll.length = w.totalNodes)
    (hfailed : ∀ poll, w.loop false lastStatus polls = some (poll, .failed) → w.StatedFailure poll)
    (hpolls : polls = before ++ poll :: after) (hbefore : ∀ p ∈ before, ¬ w.Ends p)
    (hended : 0 < w.ended poll) : w.StatedFailure poll := by
  have hsingle : ∀ lastStatus poll, 0 < w.ended poll →
      w.aggregateStatus false lastStatus poll = .failed := by
    intro lastStatus poll hended
    rw [aggregateStatus, if_neg (by simp)]
    exact singleStatus_eq_failed_iff.mpr hended
  have hloop : ∀ lastStatus poll rest, 0 < w.ended poll →
      w.loop false lastStatus (poll :: rest) = some (poll, .failed) := by
    intro lastStatus poll rest hended
    simp only [loop, hsingle lastStatus poll hended, verdictAt]
  induction before generalizing polls lastStatus with
  | nil =>
    subst hpolls
    exact hfailed poll (hloop lastStatus poll after hended)
  | cons first before ih =>
    subst hpolls
    rw [List.forall_mem_cons] at hbefore
    rw [List.cons_append, List.forall_mem_cons] at hlen
    have hnone : w.ended first = 0 := by
      by_contra hne
      exact hbefore.1 (.inl (hfailed first (hloop lastStatus first _ (Nat.pos_of_ne_zero hne))))
    have hagree : w.Agrees first :=
      ⟨List.ne_nil_of_length_pos (hlen.1 ▸ hpos), fun h => absurd hnone (Nat.ne_of_gt h)⟩
    have hverdict : w.statedVerdict first = none := by
      rw [← Option.not_isSome_iff_eq_none, statedVerdict_isSome_iff hmulti hlen.1 hpos]
      exact hbefore.1
    simp only [List.cons_append, loop, verdictAt_aggregateStatus hmulti hlen.1 hagree,
      hverdict] at hfailed
    exact ih hlen.2 hfailed rfl hbefore.2

/-! ### When the verdict is right -/

/-- A multinode wait for no reservations ends at its first poll: as failed if that is printed, and
with no reservations if it is not. -/
theorem EndsRight.totalNodes_pos (h : w.EndsRight) (hmulti : w.isMultinode = true)
    (hpoll : poll ∈ w.polls) : 0 < w.totalNodes := by
  by_contra hzero
  have hzero : w.totalNodes = 0 := Nat.eq_zero_of_not_pos hzero
  obtain ⟨first, rest, hpolls⟩ := List.exists_cons_of_ne_nil (List.ne_nil_of_mem hpoll)
  have hfirst : first = [] := by
    have hlen := w.length_eq first (hpolls ▸ List.mem_cons_self)
    exact List.length_eq_zero_iff.mp (hlen.trans hzero)
  subst hfirst
  have hsame := h.same
  simp only [result, run, hpolls, loop, aggregateStatus, hmulti, hzero, verdictAt, statuses,
    nodeDetails, List.filterMap_nil, List.map_nil, multinodeStatus, singleStatus] at hsame
  simp [nodesReady] at hsame

/-- The verdict of a multinode wait is right exactly when the two rules agree up to the poll that
ends it. -/
theorem endsRight_iff (w : Wait) :
    w.EndsRight ↔ (w.isMultinode = true → w.AgreesThroughout) := by
  have hlen : ∀ poll ∈ w.polls, poll.length = w.totalNodes := w.length_eq
  constructor
  · intro h hmulti before poll after hpolls hbefore
    have hpoll : poll ∈ w.polls := hpolls ▸ List.mem_append_right _ List.mem_cons_self
    have hpos := h.totalNodes_pos hmulti hpoll
    refine ⟨List.ne_nil_of_length_pos (hlen poll hpoll ▸ hpos), fun hended => ?_⟩
    exact statedFailure_of_loop hmulti hpos hlen (h.failed hmulti false) hpolls hbefore hended
  · intro hagree
    refine ⟨?_, ?_, ?_⟩
    · cases hmulti : w.isMultinode with
      | true => simp only [result, run, loop_eq_findSome? hmulti hlen (hagree hmulti)]
      | false => simp only [result, run, loop_eq_of_single hmulti]
    · intro hmulti verbose poll hrun
      rw [run, loop_eq_findSome? hmulti hlen (hagree hmulti)] at hrun
      obtain ⟨next, hnext, hverdict⟩ := List.exists_of_findSome?_eq_some hrun
      obtain ⟨verdict, hverdict, heq⟩ := Option.map_eq_some_iff.mp hverdict
      obtain ⟨rfl, rfl⟩ := Prod.mk.inj heq
      have hstatuses := (length_statuses hmulti).trans (hlen next hnext)
      exact (multinodeStatus_eq_failed_iff hstatuses).mp (eq_failed_of_verdictAt hverdict)
    · intro verbose poll reservations hrun
      obtain ⟨hpoll, lastStatus, hverdict⟩ := exists_of_loop hrun
      exact isConnectable_of_verdictAt (hlen poll hpoll) hverdict

end Wait

/-- One of three nodes has failed, and the others are being prepared. -/
def oneFailed : Wait where
  reservationIds := ["r-1", "r-2", "r-3"]
  isMultinode := true
  polls := [[.found ⟨"r-1", some "failed", none⟩, .found ⟨"r-2", some "preparing", none⟩,
    .found ⟨"r-3", some "preparing", none⟩]]
  single := fun h => absurd h (by decide)
  length_eq := by decide

/-- Unless the statuses are printed, this ends the wait as failed. -/
theorem not_endsRight : ¬ oneFailed.EndsRight := by
  intro h
  have hpoll : oneFailed.run false = some (oneFailed.polls.head (by decide), .failed) := by decide
  have hstated := h.failed rfl false _ hpoll
  revert hstated
  unfold Wait.StatedFailure
  decide

end CiInfra.GpuDev.ClientWaits
