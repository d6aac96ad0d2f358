import CiInfra.Lib.Probing
import Mathlib.Data.List.FinRange
import Mathlib.Data.Rat.Defs

/-!
# The node ports of a reservation

A reservation with Jupyter needs two node ports: one for SSH, one for Jupyter. Those that its
services have already are kept. The others are searched for among the ports that no service uses,
and the search for the second one is repeated until it differs from the first.
-/

namespace CiInfra.GpuDev.NodePorts

/-- A port of the range of node ports. -/
abbrev Port := { p : ℕ // 30000 ≤ p ∧ p ≤ 32767 }

theorem isPort (i : Fin 2768) : 30000 ≤ 30000 + i.val ∧ 30000 + i.val ≤ 32767 := by omega

/-- `range(30000, 32768)`. -/
def allPorts : List Port :=
  (List.finRange 2768).map fun i => ⟨30000 + i.val, isPort i⟩

/-- The ports of a service; those that are no node ports have none. -/
structure Service where
  ports : Option (List (Option Port))
  deriving DecidableEq

def usedPorts (services : List Service) : List Port :=
  services.flatMap fun svc => (svc.ports.getD []).filterMap id

def isFree (services : List Service) (port : Port) : Bool :=
  decide (port ∉ usedPorts services)

def freePorts (services : List Service) : List Port :=
  allPorts.filter (isFree services)

/-- How many random ports are tried. -/
def tries : ℕ := 10

theorem tries_pos : 0 < tries := by decide

/-- The search of `find_available_node_port`, from the `n`-th draw on, with the number of the draw
that comes next. -/
def searchPort (services : List Service) (draws : ℕ → Port) (n : ℕ) : Except String Port × ℕ :=
  match Probing.probe (isFree services) draws tries n with
  | (some port, n') => (.ok port, n')
  | (none, n') =>
    match allPorts.find? (isFree services) with
    | some port => (.ok port, n')
    | none => (.error "No available NodePort found", n')

/-- `find_available_node_port`. Its handler answers any error by a random port. -/
def findAvailableNodePort (listing : Except String (List Service)) (draws : ℕ → Port) (n : ℕ) :
    Port × ℕ :=
  match listing with
  | .error _ => (draws n, n + 1)
  | .ok services =>
    match searchPort services draws n with
    | (.ok port, n') => (port, n')
    | (.error _, n') => (draws n', n' + 1)

/-- What a read of an object comes to. -/
inductive Read (α : Type)
  | found (a : α)
  | missing
  | failed (message : String)
  deriving DecidableEq

/-- The reads of the pod, of its service for SSH, and of the one for Jupyter. The services are read
for their node port. -/
structure Reads where
  pod : Read Unit
  ssh : Read (Option Port)
  jupyter : Read (Option Port)
  deriving DecidableEq

/-- The resources that there are already. -/
structure Existing where
  podExists : Bool
  sshPort : Option Port
  jupyterPort : Option Port
  deriving DecidableEq

/-- The node port of a service that may be missing. -/
def servicePort : Read (Option Port) → Except String (Option Port)
  | .found port => .ok port
  | .missing => .ok none
  | .failed message => .error message

/-- Whether there is a pod, and the node port of its service for SSH, which is read only then. -/
def readSsh (reads : Reads) : Except String (Bool × Option Port) :=
  match reads.pod with
  | .found _ => (servicePort reads.ssh).map fun port => (true, port)
  | .missing => .ok (false, none)
  | .failed message => .error message

def readExisting (reads : Reads) : Except String Existing := do
  let (podExists, sshPort) ← readSsh reads
  let jupyterPort ← servicePort reads.jupyter
  .ok ⟨podExists, sshPort, jupyterPort⟩

/-- The loop that searches until the port differs from the one for SSH; `none` as long as it goes
on. -/
def avoidNodePort (listing : Except String (List Service)) (draws : ℕ → Port) (nodePort : Port) :
    ℕ → Port → ℕ → Option Port
  | 0, jupyterPort, _ => if jupyterPort = nodePort then none else some jupyterPort
  | fuel + 1, jupyterPort, n =>
    if jupyterPort = nodePort then
      let next := findAvailableNodePort listing draws n
      avoidNodePort listing draws nodePort fuel next.1 next.2
    else some jupyterPort

/-- A port that there is already, or one that is searched for. -/
def orFind (listing : Except String (List Service)) (draws : ℕ → Port) (port : Option Port)
    (n : ℕ) : Port × ℕ :=
  match port with
  | some p => (p, n)
  | none => findAvailableNodePort listing draws n

/-- Both ports, where the pod and both services exist. -/
def Existing.bothPorts (existing : Existing) : Option (Port × Port) :=
  if existing.podExists then
    match existing.sshPort, existing.jupyterPort with
    | some nodePort, some jupyterPort => some (nodePort, jupyterPort)
    | _, _ => none
  else none

/-- The search for the ports that are missing. -/
def searchPorts (existing : Existing) (listing : Except String (List Service)) (draws : ℕ → Port)
    (fuel : ℕ) : Option (Port × Port) :=
  let node := orFind listing draws existing.sshPort 0
  let jupyter := orFind listing draws existing.jupyterPort node.2
  (avoidNodePort listing draws node.1 fuel jupyter.1 jupyter.2).map fun port => (node.1, port)

/-- The selection of `create_kubernetes_resources` with Jupyter: the node port and the Jupyter port,
once the loop has ended. -/
def selectPorts (reads : Reads) (listing : Except String (List Service)) (draws : ℕ → Port)
    (fuel : ℕ) : Option (Except String (Port × Port)) :=
  match readExisting reads with
  | .error message => some (.error message)
  | .ok existing =>
    match existing.bothPorts with
    | some ports => some (.ok ports)
    | none => (searchPorts existing listing draws fuel).map .ok

/-! ### The selection and its end -/

/-- How many ports are still to be assigned. -/
def Existing.needed (existing : Existing) : ℕ :=
  (if existing.sshPort = none then 1 else 0) + if existing.jupyterPort = none then 1 else 0

/-- The cluster during a selection. The services that are read are among those that are listed, and
no two services have one node port. -/
structure Cluster where
  services : List Service
  reads : Reads
  ssh_mem : ∀ port, reads.ssh = .found (some port) → port ∈ usedPorts services
  jupyter_mem : ∀ port, reads.jupyter = .found (some port) → port ∈ usedPorts services
  distinct : ∀ port, reads.ssh = .found (some port) → reads.jupyter ≠ .found (some port)

/-- The selection in a cluster whose services are listed without an error. -/
def Cluster.select (c : Cluster) (draws : ℕ → Port) (fuel : ℕ) :
    Option (Except String (Port × Port)) :=
  selectPorts c.reads (.ok c.services) draws fuel

/-- An outcome of the selection that is right: two different ports, the new ones of which are free,
if there are enough of them, and otherwise an error. -/
def IsRight (services : List Service) (existing : Existing) :
    Except String (Port × Port) → Prop
  | .ok (nodePort, jupyterPort) =>
    existing.needed ≤ (freePorts services).length ∧ nodePort ≠ jupyterPort ∧
      (existing.sshPort = none → nodePort ∉ usedPorts services) ∧
      (existing.jupyterPort = none → jupyterPort ∉ usedPorts services)
  | .error _ => (freePorts services).length < existing.needed

/-- The selection ends, and ends right unless a read has failed. -/
def EndsWell (c : Cluster) (draws : ℕ → Port) : Prop :=
  ∃ fuel outcome, c.select draws fuel = some outcome ∧
    ∀ existing, readExisting c.reads = .ok existing → IsRight c.services existing outcome

/-- A port comes up if it is drawn and free, or if it is the least free one and at some time as
many draws as are tried, one after another, are in use. -/
def ComesUp (services : List Service) (draws : ℕ → Port) (port : Port) : Prop :=
  ∃ least, allPorts.find? (isFree services) = some least ∧
    Probing.ComesUp (isFree services) draws tries least port

/-- As many ports are free as are to be assigned, and where these are two, two of them come up. -/
def IsSupplied (c : Cluster) (draws : ℕ → Port) : Prop :=
  ∀ existing, readExisting c.reads = .ok existing →
    existing.needed ≤ (freePorts c.services).length ∧
      (existing.needed = 2 → ∃ p q, p ≠ q ∧ ComesUp c.services draws p ∧
        ComesUp c.services draws q)

variable {services : List Service} {draws : ℕ → Port} {least nodePort port : Port} {n fuel : ℕ}
  {reads : Reads} {listing : Except String (List Service)}

theorem isFree_iff : isFree services port = true ↔ port ∉ usedPorts services := by
  simp [isFree]

/-- With a free port, a search is one that falls back on the least of them. -/
theorem findAvailableNodePort_eq (hleast : allPorts.find? (isFree services) = some least) (n : ℕ) :
    findAvailableNodePort (.ok services) draws n =
      Probing.find (isFree services) draws tries least n := by
  simp only [findAvailableNodePort, searchPort, Probing.find, hleast]
  rcases Probing.probe (isFree services) draws tries n with ⟨_ | port, n'⟩ <;> rfl

theorem exists_least (h : 0 < (freePorts services).length) :
    ∃ least, allPorts.find? (isFree services) = some least := by
  obtain ⟨port, hport⟩ := List.exists_mem_of_length_pos h
  obtain ⟨hmem, hfree⟩ := List.mem_filter.mp hport
  exact Option.isSome_iff_exists.mp (List.find?_isSome.mpr ⟨port, hmem, hfree⟩)

/-- What is found is free, if any port is. -/
theorem notMem_findAvailableNodePort (h : 0 < (freePorts services).length) (n : ℕ) :
    (findAvailableNodePort (.ok services) draws n).1 ∉ usedPorts services := by
  obtain ⟨least, hleast⟩ := exists_least h
  rw [findAvailableNodePort_eq hleast, ← isFree_iff]
  exact Probing.isFree_find (List.find?_some hleast) n

/-- What the loop ends with differs from the node port; it is what it has started with, or what
has been found. -/
theorem avoidNodePort_eq_some {jupyterPort : Port}
    (h : avoidNodePort listing draws nodePort fuel jupyterPort n = some port) :
    port ≠ nodePort ∧
      (port = jupyterPort ∨ ∃ m, port = (findAvailableNodePort listing draws m).1) := by
  induction fuel generalizing jupyterPort n with
  | zero =>
    rw [avoidNodePort] at h
    split_ifs at h with heq
    obtain rfl := Option.some.inj h
    exact ⟨heq, Or.inl rfl⟩
  | succ fuel ih =>
    rw [avoidNodePort] at h
    split_ifs at h with heq
    · obtain ⟨hne, hport⟩ := ih h
      refine ⟨hne, Or.inr ?_⟩
      rcases hport with hport | hport
      · exact ⟨n, hport⟩
      · exact hport
    · obtain rfl := Option.some.inj h
      exact ⟨heq, Or.inl rfl⟩

theorem avoidNodePort_of_ne {jupyterPort : Port} (h : jupyterPort ≠ nodePort) (n : ℕ) :
    avoidNodePort listing draws nodePort fuel jupyterPort n = some jupyterPort := by
  cases fuel <;> rw [avoidNodePort, if_neg h]

/-- The loop that has come to the `k`-th search ends exactly if that search or a later one finds
another port. -/
theorem exists_avoidNodePort_iff (hleast : allPorts.find? (isFree services) = some least) (k : ℕ) :
    (∃ fuel port, avoidNodePort (.ok services) draws nodePort fuel
      (Probing.found (isFree services) draws tries least k).1
      (Probing.found (isFree services) draws tries least k).2 = some port) ↔
    ∃ l, (Probing.found (isFree services) draws tries least (k + l)).1 ≠ nodePort := by
  constructor
  · rintro ⟨fuel, port, h⟩
    induction fuel generalizing k with
    | zero =>
      rw [avoidNodePort] at h
      split_ifs at h with heq
      exact ⟨0, heq⟩
    | succ fuel ih =>
      rw [avoidNodePort] at h
      split_ifs at h with heq
      · rw [findAvailableNodePort_eq hleast] at h
        obtain ⟨l, hl⟩ := ih (k + 1) h
        exact ⟨l + 1, by rwa [Nat.add_right_comm] at hl⟩
      · exact ⟨0, heq⟩
  · rintro ⟨l, hl⟩
    induction l generalizing k with
    | zero => exact ⟨0, _, avoidNodePort_of_ne hl _⟩
    | succ l ih =>
      obtain ⟨fuel, port, h⟩ := ih (k + 1) (by rwa [Nat.add_right_comm])
      by_cases heq : (Probing.found (isFree services) draws tries least k).1 = nodePort
      · refine ⟨fuel + 1, port, ?_⟩
        rw [avoidNodePort, if_pos heq, findAvailableNodePort_eq hleast]
        exact h
      · exact ⟨0, _, avoidNodePort_of_ne heq _⟩

/-- The two searches of a selection that has to assign both ports end exactly if two ports come
up. -/
theorem exists_select_iff (hleast : allPorts.find? (isFree services) = some least) :
    (∃ fuel port, avoidNodePort (.ok services) draws
      (findAvailableNodePort (.ok services) draws 0).1 fuel
      (findAvailableNodePort (.ok services) draws
        (findAvailableNodePort (.ok services) draws 0).2).1
      (findAvailableNodePort (.ok services) draws
        (findAvailableNodePort (.ok services) draws 0).2).2 = some port) ↔
    ∃ p q, p ≠ q ∧ ComesUp services draws p ∧ ComesUp services draws q := by
  have hcomes : ∀ p, ComesUp services draws p ↔
      Probing.ComesUp (isFree services) draws tries least p := by
    intro p
    constructor
    · rintro ⟨least', hleast', h⟩
      rwa [Option.some.inj (hleast.symm.trans hleast')]
    · exact fun h => ⟨least, hleast, h⟩
  simp only [hcomes]
  rw [← Probing.exists_found_ne_iff tries_pos]
  simp only [findAvailableNodePort_eq hleast]
  rw [show Probing.find (isFree services) draws tries least
      (Probing.find (isFree services) draws tries least 0).2 =
      Probing.found (isFree services) draws tries least 1 from rfl, exists_avoidNodePort_iff hleast]
  constructor
  · rintro ⟨l, hl⟩
    exact ⟨1 + l, hl⟩
  · rintro ⟨k, hk⟩
    cases k with
    | zero => exact absurd rfl hk
    | succ k => exact ⟨k, by rwa [Nat.add_comm 1 k]⟩

theorem servicePort_eq_ok {read : Read (Option Port)} {found : Option Port}
    (h : servicePort read = .ok found) : found = none ∨ read = .found found := by
  cases read with
  | found port =>
    rw [servicePort] at h
    exact Or.inr (by rw [Except.ok.inj h])
  | missing => exact Or.inl (Except.ok.inj h).symm
  | failed message => cases h

theorem readSsh_eq_ok {found : Bool × Option Port} (h : readSsh reads = .ok found) :
    found.2 = none ∨ found.1 = true ∧ reads.ssh = .found found.2 := by
  rw [readSsh] at h
  cases hpod : reads.pod with
  | found pod =>
    cases hssh : servicePort reads.ssh with
    | error message =>
      rw [hpod, hssh] at h
      cases h
    | ok port =>
      rw [hpod, hssh] at h
      obtain rfl := Except.ok.inj h
      exact (servicePort_eq_ok hssh).imp id fun hread => ⟨rfl, hread⟩
  | missing =>
    rw [hpod] at h
    exact Or.inl (congrArg Prod.snd (Except.ok.inj h)).symm
  | failed message =>
    rw [hpod] at h
    cases h

/-- The ports that there are already are the ones that have been read. -/
theorem readExisting_eq_ok {existing : Existing} (h : readExisting reads = .ok existing) :
    (existing.sshPort = none ∨ existing.podExists = true ∧ reads.ssh = .found existing.sshPort) ∧
    (existing.jupyterPort = none ∨ reads.jupyter = .found existing.jupyterPort) := by
  rw [readExisting] at h
  cases hssh : readSsh reads with
  | error message =>
    rw [hssh] at h
    cases h
  | ok found =>
    cases hjupyter : servicePort reads.jupyter with
    | error message =>
      rw [hssh, hjupyter] at h
      cases h
    | ok jupyterPort =>
      rw [hssh, hjupyter] at h
      obtain rfl := Except.ok.inj h
      exact ⟨readSsh_eq_ok hssh, servicePort_eq_ok hjupyter⟩

theorem bothPorts_eq_some {existing : Existing} {ports : Port × Port}
    (h : existing.bothPorts = some ports) :
    existing.sshPort = some ports.1 ∧ existing.jupyterPort = some ports.2 := by
  rcases existing with ⟨_ | _, _ | nodePort, _ | jupyterPort⟩ <;>
    simp [Existing.bothPorts] at h ⊢
  simp [← h]

/-- What is missing where not both ports are there. -/
theorem exists_none_of_bothPorts {existing : Existing} (h : readExisting reads = .ok existing)
    (hnone : existing.bothPorts = none) :
    existing.sshPort = none ∨ existing.jupyterPort = none := by
  by_contra hboth
  push Not at hboth
  obtain ⟨hssh | ⟨hexists, -⟩, -⟩ := readExisting_eq_ok h
  · exact hboth.1 hssh
  · obtain ⟨nodePort, hnode⟩ := Option.ne_none_iff_exists'.mp hboth.1
    obtain ⟨jupyterPort, hjupyter⟩ := Option.ne_none_iff_exists'.mp hboth.2
    simp [Existing.bothPorts, hexists, hnode, hjupyter] at hnone

/-- A port that is searched for is free, if any is. -/
theorem notMem_orFind (h : 0 < (freePorts services).length) (n : ℕ) :
    (orFind (.ok services) draws none n).1 ∉ usedPorts services :=
  notMem_findAvailableNodePort h n

theorem needed_pos {existing : Existing}
    (h : existing.sshPort = none ∨ existing.jupyterPort = none) : 0 < existing.needed := by
  unfold Existing.needed
  rcases h with h | h <;> rw [if_pos h] <;> omega

theorem needed_eq_two {existing : Existing} :
    existing.needed = 2 ↔ existing.sshPort = none ∧ existing.jupyterPort = none := by
  unfold Existing.needed
  split_ifs <;> simp [*]

/-- The search finds what is right, if it ends and there are enough ports. -/
theorem isRight_searchPorts {existing : Existing} {ports : Port × Port}
    (hneeded : existing.needed ≤ (freePorts services).length) (hpos : 0 < existing.needed)
    (h : searchPorts existing (.ok services) draws fuel = some ports) :
    IsRight services existing (.ok ports) := by
  obtain ⟨port, havoid, rfl⟩ := Option.map_eq_some_iff.mp h
  obtain ⟨hne, hport⟩ := avoidNodePort_eq_some havoid
  have hfree := hpos.trans_le hneeded
  refine ⟨hneeded, hne.symm, fun hssh => ?_, fun hjupyter => ?_⟩
  · rw [hssh]
    exact notMem_orFind hfree 0
  · rcases hport with rfl | ⟨m, rfl⟩
    · rw [hjupyter]
      exact notMem_orFind hfree _
    · exact notMem_findAvailableNodePort hfree m

/-- The search ends when the loop does. -/
theorem exists_searchPorts (existing : Existing) (listing : Except String (List Service))
    (draws : ℕ → Port) :
    (∃ fuel ports, searchPorts existing listing draws fuel = some ports) ↔
      ∃ fuel port, avoidNodePort listing draws (orFind listing draws existing.sshPort 0).1 fuel
        (orFind listing draws existing.jupyterPort (orFind listing draws existing.sshPort 0).2).1
        (orFind listing draws existing.jupyterPort (orFind listing draws existing.sshPort 0).2).2 =
          some port := by
  refine exists_congr fun fuel => ⟨?_, ?_⟩
  · rintro ⟨ports, h⟩
    obtain ⟨port, hport, -⟩ := Option.map_eq_some_iff.mp h
    exact ⟨port, hport⟩
  · rintro ⟨port, h⟩
    exact ⟨_, Option.map_eq_some_iff.mpr ⟨port, h, rfl⟩⟩

/-- A free port and one that is in use differ, so that the loop ends at once. -/
theorem ne_of_notMem {p q : Port} (hp : p ∈ usedPorts services) (hq : q ∉ usedPorts services) :
    p ≠ q := by
  rintro rfl
  exact hq hp

/-- The search ends exactly if it has not to find two ports, or two come up. -/
theorem exists_searchPorts_iff {existing : Existing}
    (hssh : ∀ p, existing.sshPort = some p → p ∈ usedPorts services)
    (hjupyter : ∀ p, existing.jupyterPort = some p → p ∈ usedPorts services)
    (hnone : existing.sshPort = none ∨ existing.jupyterPort = none)
    (hfree : 0 < (freePorts services).length) :
    (∃ fuel ports, searchPorts existing (.ok services) draws fuel = some ports) ↔
      (existing.needed = 2 → ∃ p q, p ≠ q ∧ ComesUp services draws p ∧
        ComesUp services draws q) := by
  obtain ⟨least, hleast⟩ := exists_least hfree
  rw [needed_eq_two, exists_searchPorts]
  rcases existing with ⟨podExists, _ | nodePort, _ | jupyterPort⟩
  · simp only [true_and, forall_const]
    exact exists_select_iff hleast
  · refine iff_of_true ⟨0, jupyterPort, avoidNodePort_of_ne ?_ _⟩ (by simp)
    exact ne_of_notMem (hjupyter _ rfl) (notMem_orFind hfree 0)
  · refine iff_of_true ⟨0, _, avoidNodePort_of_ne ?_ _⟩ (by simp)
    exact (ne_of_notMem (hssh _ rfl) (notMem_orFind hfree 0)).symm
  · simp at hnone

/-- The ports that there are already are in use, and differ. -/
theorem Cluster.existing_mem (c : Cluster) {existing : Existing}
    (h : readExisting c.reads = .ok existing) :
    (∀ p, existing.sshPort = some p → p ∈ usedPorts c.services) ∧
    (∀ p, existing.jupyterPort = some p → p ∈ usedPorts c.services) ∧
    ∀ p, existing.sshPort = some p → existing.jupyterPort ≠ some p := by
  obtain ⟨hssh, hjupyter⟩ := readExisting_eq_ok h
  have hssh' : ∀ p, existing.sshPort = some p → c.reads.ssh = .found (some p) := by
    intro p hp
    rw [hp] at hssh
    obtain hnone | ⟨-, hread⟩ := hssh
    · cases hnone
    · exact hread
  have hjupyter' : ∀ p, existing.jupyterPort = some p → c.reads.jupyter = .found (some p) := by
    intro p hp
    rw [hp] at hjupyter
    obtain hnone | hread := hjupyter
    · cases hnone
    · exact hread
  exact ⟨fun p hp => c.ssh_mem p (hssh' p hp), fun p hp => c.jupyter_mem p (hjupyter' p hp),
    fun p hp hq => c.distinct p (hssh' p hp) (hjupyter' p hq)⟩

/-- The selection by the resources that there are already. -/
theorem endsWell_of_readExisting {c : Cluster} {existing : Existing}
    (h : readExisting c.reads = .ok existing) :
    EndsWell c draws ↔ ∃ fuel outcome, c.select draws fuel = some outcome ∧
      IsRight c.services existing outcome := by
  refine exists_congr fun fuel => exists_congr fun outcome => and_congr_right fun _ => ⟨?_, ?_⟩
  · exact fun hright => hright existing h
  · intro hright existing' h'
    rwa [← Except.ok.inj (h.symm.trans h')]

/-- The selection ends well exactly if the draws and the cluster supply the ports. -/
theorem endsWell_iff (c : Cluster) (draws : ℕ → Port) : EndsWell c draws ↔ IsSupplied c draws := by
  cases h : readExisting c.reads with
  | error message =>
    refine iff_of_true ⟨0, .error message, ?_, fun existing h' => ?_⟩ fun existing h' => ?_
    · rw [Cluster.select, selectPorts, h]
    all_goals
      rw [h] at h'
      cases h'
  | ok existing =>
    obtain ⟨hssh, hjupyter, hdistinct⟩ := c.existing_mem h
    have hsupplied : IsSupplied c draws ↔ existing.needed ≤ (freePorts c.services).length ∧
        (existing.needed = 2 → ∃ p q, p ≠ q ∧ ComesUp c.services draws p ∧
          ComesUp c.services draws q) := by
      refine ⟨fun hs => hs existing h, fun hs existing' h' => ?_⟩
      rwa [← Except.ok.inj (h.symm.trans h')]
    rw [endsWell_of_readExisting h, hsupplied]
    simp only [Cluster.select, selectPorts, h]
    cases hboth : existing.bothPorts with
    | some ports =>
      obtain ⟨hs, hj⟩ := bothPorts_eq_some hboth
      have hzero : existing.needed = 0 := by simp [Existing.needed, hs, hj]
      rw [hzero]
      refine iff_of_true ⟨0, _, rfl, by simp [hzero], ?_, ?_, ?_⟩ (by simp)
      · rintro heq
        exact hdistinct _ hs (by rw [hj, heq])
      · simp [hs]
      · simp [hj]
    | none =>
      have hnone := exists_none_of_bothPorts h hboth
      constructor
      · rintro ⟨fuel, outcome, hsearch, hright⟩
        obtain ⟨ports, hports, rfl⟩ := Option.map_eq_some_iff.mp hsearch
        have hneeded : existing.needed ≤ (freePorts c.services).length := hright.1
        have hfree := (needed_pos hnone).trans_le hneeded
        exact ⟨hneeded, (exists_searchPorts_iff hssh hjupyter hnone hfree).mp ⟨fuel, ports, hports⟩⟩
      · rintro ⟨hneeded, hcome⟩
        have hfree := (needed_pos hnone).trans_le hneeded
        obtain ⟨fuel, ports, hports⟩ :=
          (exists_searchPorts_iff hssh hjupyter hnone hfree).mpr hcome
        exact ⟨fuel, .ok ports, by rw [hports]; rfl,
          isRight_searchPorts hneeded (needed_pos hnone) hports⟩

/-- All ports are in use, and none is assigned yet: no draws lead to an error. -/
theorem not_endsWell : ¬ ∀ (c : Cluster) (draws : ℕ → Port), EndsWell c draws := by
  intro h
  have hused : usedPorts [⟨some (allPorts.map some)⟩] = allPorts := by
    simp [usedPorts]
  obtain ⟨fuel, outcome, hselect, hright⟩ := h ⟨[⟨some (allPorts.map some)⟩],
    ⟨.missing, .missing, .missing⟩, by simp, by simp, by simp⟩ fun n =>
      ⟨30000 + n % 2768, by omega⟩
  obtain ⟨ports, -, rfl⟩ := Option.map_eq_some_iff.mp hselect
  have hneeded := (hright ⟨false, none, none⟩ rfl).1
  have hnone : freePorts [⟨some (allPorts.map some)⟩] = [] := by
    refine List.filter_eq_nil_iff.mpr fun p hp => ?_
    rw [isFree_iff, hused]
    exact not_not_intro hp
  rw [hnone] at hneeded
  exact absurd hneeded (by decide)

end CiInfra.GpuDev.NodePorts
