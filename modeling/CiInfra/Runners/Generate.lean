import CiInfra.Lib.PythonNumber
import CiInfra.Runners.NodepoolDefs
import CiInfra.Runners.Sharding

/-!
# Rendering the runner scale sets

Each runner definition is rendered, for one cluster, to the values that fill the template. A cluster
that is paused, and a region that has no nodes for the instance type, render without capacity.
-/

namespace CiInfra.Runners

/-- A number of runners: an integer or anything else. -/
inductive Count
  | int (n : ℤ)
  | other (repr : String)

/-- `max_runners`: a number, or a mapping from clusters with a `default`. -/
inductive MaxRunners
  | value (count : Count)
  | mapping (entries : List (String × Count))

/-- The `runner` of a definition file. -/
structure RunnerDef where
  name : Option String := none
  instanceType : Option String := none
  vcpu : String := "None"
  memory : String := "None"
  gpu : ℤ := 0
  diskSize : ℤ := 100
  runnerGroup : String := "default"
  runnerClass : String := ""
  maxRunners : Option MaxRunners := none
  proactiveCapacity : ℤ := 0
  maxBurstCapacity : Count := .int 0
  hudFailureBaseCapacity : ℤ := 0
  nodeFleet : Option String := none
  imexChannels : Option String := none
  freshMultiplier : Option Scalar := none
  schedulerName : String := ""

/-! ### The number of runners -/

/-- `isinstance(v, int) and v >= 1`. -/
def Count.positive : Count → Option ℤ
  | .int n => if 1 ≤ n then some n else none
  | .other _ => none

/-- `{v!r}`. -/
def Count.repr : Count → String
  | .int n => toString n
  | .other s => s

/-- The first entry that is no positive integer. -/
def firstBad (entries : List (String × Count)) : Option (String × Count) :=
  entries.find? fun e => e.2.positive.isNone

/-- `resolve_max_runners`. -/
def resolveMaxRunners (value : Option MaxRunners) (defFile clusterId : String) :
    Except String (Option ℤ) :=
  match value with
  | none => .ok none
  | some (.mapping entries) =>
    match entries.lookup "default" with
    | none => .error ("Invalid definition file " ++ defFile ++
        ": max_runners mapping must include a " ++
        "`default` key for the baseline value, got keys [" ++
        ", ".intercalate ((entries.map (·.1)).mergeSort.map fun k => "'" ++ k ++ "'") ++ "]")
    | some baseline =>
      match firstBad entries with
      | some (cid, v) => .error ("Invalid definition file " ++ defFile ++
          ": max_runners['" ++ cid ++ "'] must be a positive integer, got " ++ v.repr)
      | none => .ok ((entries.lookup clusterId).getD baseline).positive
  | some (.value v) =>
    match v.positive with
    | some n => .ok (some n)
    | none => .error ("Invalid definition file " ++ defFile ++
        ": max_runners must be a positive integer or a mapping with a `default` key, got " ++
        v.repr)

theorem one_le_of_positive {v : Count} {n : ℤ} (h : v.positive = some n) : 1 ≤ n := by
  unfold Count.positive at h
  split at h
  · split at h
    · cases h
      assumption
    · cases h
  · cases h

/-- What a definition asks for is no pause. -/
theorem one_le_of_resolveMaxRunners {value : Option MaxRunners} {defFile clusterId : String} {n : ℤ}
    (h : resolveMaxRunners value defFile clusterId = .ok (some n)) : 1 ≤ n := by
  unfold resolveMaxRunners at h
  split at h
  · cases h
  · split at h
    · cases h
    · split at h
      · cases h
      · exact one_le_of_positive (Except.ok.inj h)
  · split at h
    · cases h
      exact one_le_of_positive ‹_›
    · cases h

/-! ### One definition -/

/-- `cluster_config`, as `main` prepares it. -/
structure RenderConfig where
  arcRunners : ArcRunners
  runnerImage : String
  proactiveCapacityMax : Option ℤ
  pauseRunners : Bool
  region : String
  excludedInstanceTypes : List String
  clusterId : String
  clusterIndex : ℕ
  clusterCount : ℕ
  ageThresholdSeconds : ℤ

/-- The values that fill the template. -/
structure Rendered where
  githubConfigUrl : String
  githubSecretName : String
  /-- `{{RUNNER_NAME_PREFIX}}{{RUNNER_NAME}}`. -/
  runnerScaleSetName : String
  runnerNameNormalized : String
  instanceType : String
  nodeFleet : String
  vcpu : String
  memory : String
  memoryBytes : ℤ
  diskSize : ℤ
  gpu : ℤ
  imexChannels : Option String
  moduleName : String
  runnerImage : String
  runnerGroup : String
  runnerClass : String
  /-- The number in `{{MAX_RUNNERS_LINE}}`, if the line is not empty. -/
  maxRunners : Option ℤ
  proactiveCapacity : ℤ
  maxBurstCapacity : ℤ
  hudFailureBaseCapacity : ℤ
  schedulerName : String
  clusterIndex : ℕ
  clusterCount : ℕ
  ageThresholdSeconds : ℤ
  freshMultiplier : ℚ

/-- `_K8S_MEMORY_SUFFIXES`. -/
def memorySuffixes : List (String × ℤ) :=
  [("Ki", 1024), ("Mi", 1024 ^ 2), ("Gi", 1024 ^ 3), ("Ti", 1024 ^ 4), ("K", 1000), ("M", 1000 ^ 2),
    ("G", 1000 ^ 3), ("T", 1000 ^ 4)]

/-- The number before a suffix of `n` characters, times what the suffix stands for. -/
def suffixedMemory? (cs : List Char) (n : ℕ) : Option (Option ℤ) :=
  if n < cs.length then
    (memorySuffixes.lookup (String.ofList (cs.drop (cs.length - n)))).map fun factor =>
      (PythonNumber.int? (cs.take (cs.length - n))).map (· * factor)
  else none

/-- `parse_memory_bytes`; `none` is the `ValueError`. -/
def parseMemoryBytes (memory : String) : Option ℤ :=
  match suffixedMemory? memory.toList 2 <|> suffixedMemory? memory.toList 1 with
  | some bytes => bytes
  | none => PythonNumber.int? memory.toList

/-- `normalize_name`. -/
def normalizeName (name : String) : String :=
  name.map fun c => if c = '.' ∨ c = '_' then '-' else c

/-- What follows the first occurrence of a pattern. -/
def afterFirst (pattern : List Char) : List Char → Option (List Char)
  | [] => if pattern.isEmpty then some [] else none
  | c :: cs =>
    if pattern.isPrefixOf (c :: cs) then some ((c :: cs).drop pattern.length)
    else afterFirst pattern cs

/-- The URL is that of a repository, which cannot resolve runner groups. -/
def isRepoScoped (githubUrl : String) : Bool :=
  let stripped := (githubUrl.toList.reverse.dropWhile (· = '/')).reverse
  (afterFirst "github.com/".toList githubUrl.toList).isSome &&
    ((afterFirst "github.com/".toList stripped).getD stripped).contains '/'

/-- The runner group of a definition on a cluster. -/
def runnerGroupOf (r : RunnerDef) (arcRunners : ArcRunners) : String :=
  let clusterGroup := arcRunners.runnerGroup.filter (· ≠ "")
  let group := if r.runnerClass = "release" then deriveReleaseRunnerGroup clusterGroup
    else clusterGroup.getD r.runnerGroup
  if group ≠ "default" ∧ isRepoScoped (arcRunners.githubConfigUrl.getD "") then "default" else group

/-- The scheduler of a definition on a cluster that deploys the modules. -/
def schedulerNameOf (r : RunnerDef) (arcRunners : ArcRunners) (availableModules : List String) :
    String :=
  let name := if r.schedulerName = "" then arcRunners.schedulerName.getD "" else r.schedulerName
  if availableModules.contains name then name else ""

/-- `float(fresh_multiplier)`; `none` is the `ValueError`. -/
def Scalar.toFloat? : Scalar → Option ℚ
  | .number q => some q
  | .text s => PythonNumber.float? s.toList

/-- The fresh multiplier of a definition, with the fallback to the block of the module. -/
def freshMultiplierOf (r : RunnerDef) (cfg : ClusterConfig) (moduleName : String) : Option ℚ :=
  match r.freshMultiplier with
  | some m => m.toFloat?
  | none => ((cfg.freshMultipliers.lookup moduleName).getD (.number 1)).toFloat?

/-- The three numbers that capacity is advertised with. -/
structure Capacity where
  maxRunners : Option ℤ
  proactive : ℤ
  hudFailureBase : ℤ

/-- The capacity, after the cap of the cluster, the pause and the exclusion of the region. -/
def capacityOf (r : RunnerDef) (cfg : RenderConfig) (instanceType : String)
    (maxRunners : Option ℤ) : Capacity :=
  let proactive := match cfg.proactiveCapacityMax with
    | some cap => min r.proactiveCapacity cap
    | none => r.proactiveCapacity
  let paused := if cfg.pauseRunners then ⟨some 0, proactive, 0⟩
    else ⟨maxRunners, proactive, r.hudFailureBaseCapacity⟩
  if instanceType ∈ cfg.excludedInstanceTypes then ⟨some 0, 0, 0⟩ else paused

theorem maxRunners_capacityOf (r : RunnerDef) (cfg : RenderConfig) (instanceType : String)
    (maxRunners : Option ℤ) : (capacityOf r cfg instanceType maxRunners).maxRunners =
      if cfg.pauseRunners = true ∨ instanceType ∈ cfg.excludedInstanceTypes then some 0
      else maxRunners := by
  unfold capacityOf
  by_cases hexcluded : instanceType ∈ cfg.excludedInstanceTypes
  · simp [hexcluded]
  · cases cfg.pauseRunners <;> simp [hexcluded]

/-- The checks of `max_burst_capacity`. -/
def checkBurst (maxBurst : Count) (capacity : Capacity) : Option ℤ :=
  match maxBurst with
  | .other _ => none
  | .int n =>
    if n < 0 ∨ (0 < n ∧ 0 < capacity.proactive ∧ n < capacity.proactive) ∨
        (0 < n ∧ 0 < capacity.hudFailureBase ∧ n < capacity.hudFailureBase) then none
    else some n

/-- `generate_runner`: what is rendered, or nothing if the definition is invalid. An error is raised
or ends the run. -/
def generateRunner (defFile : DefFile RunnerDef) (cfg : RenderConfig) (moduleName : String)
    (cluster : ClusterConfig) : Except String (Option Rendered) := do
  let r ← defFile.content
  let some freshMultiplier := freshMultiplierOf r cluster moduleName
    | throw ("Invalid fresh_multiplier for runner " ++ r.name.getD "None")
  let some name := r.name.filter (· ≠ "") | return none
  let some instanceType := r.instanceType.filter (· ≠ "") | return none
  let maxRunners ← resolveMaxRunners r.maxRunners defFile.name cfg.clusterId
  let capacity := capacityOf r cfg instanceType maxRunners
  let some maxBurst := checkBurst r.maxBurstCapacity capacity | return none
  let .ok nodeFleet := deriveFleetName instanceType r.nodeFleet | return none
  let some memoryBytes := parseMemoryBytes r.memory
    | throw ("invalid literal for int(): " ++ r.memory)
  return some {
    githubConfigUrl := cfg.arcRunners.githubConfigUrl.getD ""
    githubSecretName := cfg.arcRunners.githubSecretName.getD ""
    runnerScaleSetName := cfg.arcRunners.runnerNamePrefix.getD "" ++ name
    runnerNameNormalized := normalizeName name
    instanceType := instanceType
    nodeFleet := nodeFleet
    vcpu := r.vcpu
    memory := r.memory
    memoryBytes := memoryBytes
    diskSize := r.diskSize
    gpu := r.gpu
    imexChannels := r.imexChannels
    moduleName := moduleName
    runnerImage := cfg.runnerImage
    runnerGroup := runnerGroupOf r cfg.arcRunners
    runnerClass := r.runnerClass
    maxRunners := capacity.maxRunners
    proactiveCapacity := capacity.proactive
    maxBurstCapacity := maxBurst
    hudFailureBaseCapacity := capacity.hudFailureBase
    schedulerName := schedulerNameOf r cfg.arcRunners cluster.modules
    clusterIndex := cfg.clusterIndex
    clusterCount := cfg.clusterCount
    ageThresholdSeconds := cfg.ageThresholdSeconds
    freshMultiplier := freshMultiplier }

/-- What is rendered comes from a definition with a name and an instance type. -/
structure RendersFrom (r : RunnerDef) (defFile : String) (cfg : RenderConfig) (out : Rendered)
    (name : String) (maxRunners : Option ℤ) : Prop where
  named : r.name = some name ∧ name ≠ ""
  typed : r.instanceType = some out.instanceType ∧ out.instanceType ≠ ""
  resolved : resolveMaxRunners r.maxRunners defFile cfg.clusterId = .ok maxRunners
  maxRunners : out.maxRunners = (capacityOf r cfg out.instanceType maxRunners).maxRunners
  nodeFleet : deriveFleetName out.instanceType r.nodeFleet = .ok out.nodeFleet
  runnerScaleSetName : out.runnerScaleSetName = cfg.arcRunners.runnerNamePrefix.getD "" ++ name

theorem rendersFrom_of_generateRunner {defFile : DefFile RunnerDef} {cfg : RenderConfig}
    {moduleName : String} {cluster : ClusterConfig} {out : Rendered}
    (h : generateRunner defFile cfg moduleName cluster = .ok (some out)) :
    ∃ r name maxRunners, defFile.content = .ok r ∧
      RendersFrom r defFile.name cfg out name maxRunners := by
  unfold generateRunner at h
  cases hcontent : defFile.content with
  | error e =>
    rw [hcontent] at h
    cases h
  | ok r =>
    simp only [hcontent, bind, Except.bind] at h
    cases hfresh : freshMultiplierOf r cluster moduleName with
    | none =>
      rw [hfresh] at h
      cases h
    | some freshMultiplier =>
    cases hname : r.name.filter (· ≠ "") with
    | none =>
      simp only [hfresh, hname] at h
      cases h
    | some name =>
    cases htype : r.instanceType.filter (· ≠ "") with
    | none =>
      simp only [hfresh, hname, htype] at h
      cases h
    | some instanceType =>
    cases hmax : resolveMaxRunners r.maxRunners defFile.name cfg.clusterId with
    | error e =>
      simp only [hfresh, hname, htype, hmax] at h
      cases h
    | ok maxRunners =>
    cases hburst : checkBurst r.maxBurstCapacity (capacityOf r cfg instanceType maxRunners) with
    | none =>
      simp only [hfresh, hname, htype, hmax, hburst] at h
      cases h
    | some maxBurst =>
    cases hfleet : deriveFleetName instanceType r.nodeFleet with
    | error e =>
      simp only [hfresh, hname, htype, hmax, hburst, hfleet] at h
      cases h
    | ok nodeFleet =>
    cases hmemory : parseMemoryBytes r.memory with
    | none =>
      simp only [hfresh, hname, htype, hmax, hburst, hfleet, hmemory] at h
      cases h
    | some memoryBytes =>
    simp only [hfresh, hname, htype, hmax, hburst, hfleet, hmemory] at h
    cases h
    simp only [Option.filter_eq_some_iff, ne_eq, decide_not, Bool.not_eq_true',
      decide_eq_false_iff_not] at hname htype
    exact ⟨r, name, maxRunners, rfl, hname, htype, hmax, rfl, hfleet, rfl⟩

/-! ### The deploy of a module -/

/-- The repository: the definition files of each module, sorted by name. -/
structure Repo where
  nodepoolDefs : String → List (DefFile NodepoolDef)
  runnerDefs : String → List (DefFile RunnerDef)
  runnerNames : ∀ m, ((runnerDefs m).map (·.name)).Nodup

/-- `cluster_config` for a cluster and a module. -/
def renderConfig (repo : Repo) (file : ClustersFile) (clusterId : String) (cluster : ClusterConfig)
    (moduleName runnerImage : String) : RenderConfig where
  arcRunners := file.resolveArcRunners cluster
  runnerImage := runnerImage
  proactiveCapacityMax := cluster.proactiveCapacityMax
  pauseRunners := cluster.pauseRunners
  region := cluster.region.getD ""
  excludedInstanceTypes :=
    loadExcludedInstanceTypes (repo.nodepoolDefs "nodepools") (cluster.region.getD "")
  clusterId := clusterId
  clusterIndex := (file.share (clusterId, cluster) moduleName).1
  clusterCount := (file.share (clusterId, cluster) moduleName).2
  ageThresholdSeconds := cluster.ageThresholdSeconds

/-- What the deploy of a module renders for a definition file. -/
def render (repo : Repo) (file : ClustersFile) (clusterId : String) (cluster : ClusterConfig)
    (runnerImage moduleName : String) (defFile : DefFile RunnerDef) :
    Except String (Option Rendered) :=
  generateRunner defFile (renderConfig repo file clusterId cluster moduleName runnerImage)
    moduleName
    cluster

end CiInfra.Runners
