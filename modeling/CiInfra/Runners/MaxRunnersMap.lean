import CiInfra.Runners.Generate

/-!
# Resuming the runners

After a drain, the capacity of every scale set is restored from a map that a second program computes
from the same files. This file shows that the map has, for each scale set that renders, the capacity
that it renders with.
-/

namespace CiInfra.Runners

/-- `MAX_INT32`. -/
def maxInt32 : ℤ := 2 ^ 31 - 1

/-- `resolve_runner_name_prefix`. -/
def resolveRunnerNamePrefix (file : ClustersFile) (cluster : ClusterConfig) : String :=
  (file.resolveArcRunners cluster).runnerNamePrefix.getD ""

/-- `s.replace("_", "-")`. -/
def dashed (s : String) : String := s.map fun c => if c = '_' then '-' else c

/-- `compute_ars_name`. -/
def computeArsName (namePrefix runnerName : String) : String := dashed (namePrefix ++ runnerName)

/-- `parse_def_file`: the name, the instance type and the number of runners. -/
def parseDefFile (defFile : DefFile RunnerDef) (clusterId : String) :
    Except String (String × Option String × Option ℤ) := do
  let r ← defFile.content
  let some name := r.name.filter (· ≠ "")
    | throw ("Invalid def file " ++ defFile.name ++ ": missing required 'runner.name'")
  let maxRunners ← resolveMaxRunners r.maxRunners defFile.name clusterId
  return (name, r.instanceType, maxRunners)

/-- `result[ars_name] = value`. -/
def setItem (result : List (String × ℤ)) (key : String) (value : ℤ) : List (String × ℤ) :=
  if result.any fun e => e.1 = key then
    result.map fun e => if e.1 = key then (key, value) else e
  else result ++ [(key, value)]

/-- One definition file. -/
def addDefFile (namePrefix clusterId : String) (paused : Bool) (excluded : List String)
    (result : List (String × ℤ)) (defFile : DefFile RunnerDef) :
    Except String (List (String × ℤ)) := do
  let (name, instanceType, maxRunners) ← parseDefFile defFile clusterId
  return setItem result (computeArsName namePrefix name)
    (if paused || instanceType.any (· ∈ excluded) then 0 else maxRunners.getD maxInt32)

/-- `build_max_runners_map`. -/
def buildMaxRunnersMap (repo : Repo) (file : ClustersFile) (clusterId : String) :
    Except String (List (String × ℤ)) :=
  match file.clusters.lookup clusterId with
  | none => .error ("Unknown cluster '" ++ clusterId ++ "'. Known clusters: " ++
      if file.clusters.isEmpty then "<none>"
      else ", ".intercalate (file.clusters.map (·.1)).mergeSort)
  | some cluster =>
    ((cluster.enabledModules "arc-runners").flatMap repo.runnerDefs).foldlM
      (addDefFile (resolveRunnerNamePrefix file cluster) clusterId cluster.pauseRunners
        (loadExcludedInstanceTypes (repo.nodepoolDefs "nodepools") (cluster.region.getD ""))) []

/-! ### What the map has -/

/-- The name of the scale set that the chart makes of a rendered definition. -/
def Rendered.scaleSetName (out : Rendered) : String := dashed out.runnerScaleSetName

/-- The capacity that the controller gives a rendered definition. -/
def Rendered.capacity (out : Rendered) : ℤ := out.maxRunners.getD maxInt32

/-- The definitions of the enabled modules, each with its module. -/
def ClusterConfig.runnerDefs (cluster : ClusterConfig) (repo : Repo) :
    List (String × DefFile RunnerDef) :=
  (cluster.enabledModules "arc-runners").flatMap fun m => (repo.runnerDefs m).map fun f => (m, f)

theorem setItem_of_notMem {result : List (String × ℤ)} {key : String} (value : ℤ)
    (h : key ∉ result.map (·.1)) : setItem result key value = result ++ [(key, value)] := by
  unfold setItem
  rw [if_neg]
  simpa using fun x hx => h (List.mem_map.mpr ⟨(key, x), hx, rfl⟩)

section Map

variable {repo : Repo} {file : ClustersFile} {clusterId runnerImage : String}
  {cluster : ClusterConfig}

/-- A definition that renders adds what it renders with. -/
theorem addDefFile_of_render {m : String} {f : DefFile RunnerDef} {out : Rendered}
    (h : render repo file clusterId cluster runnerImage m f = .ok (some out))
    (result : List (String × ℤ)) :
    addDefFile (resolveRunnerNamePrefix file cluster) clusterId cluster.pauseRunners
        (loadExcludedInstanceTypes (repo.nodepoolDefs "nodepools") (cluster.region.getD ""))
        result f =
      .ok (setItem result out.scaleSetName out.capacity) := by
  obtain ⟨r, name, maxRunners, hcontent, hfrom⟩ := rendersFrom_of_generateRunner h
  have hname : r.name.filter (· ≠ "") = some name := by simp [hfrom.named]
  have hresolved : resolveMaxRunners r.maxRunners f.name clusterId = .ok maxRunners :=
    hfrom.resolved
  have hparse : parseDefFile f clusterId = .ok (name, r.instanceType, maxRunners) := by
    unfold parseDefFile
    simp only [hcontent, hname, hresolved, bind, Except.bind]
    rfl
  have hkey : computeArsName (resolveRunnerNamePrefix file cluster) name = out.scaleSetName := by
    rw [Rendered.scaleSetName, hfrom.runnerScaleSetName]
    rfl
  have hvalue : (if cluster.pauseRunners || r.instanceType.any (· ∈ loadExcludedInstanceTypes
      (repo.nodepoolDefs "nodepools") (cluster.region.getD "")) then 0
        else maxRunners.getD maxInt32) = out.capacity := by
    have hmax : out.maxRunners = if cluster.pauseRunners = true ∨ out.instanceType ∈
        loadExcludedInstanceTypes (repo.nodepoolDefs "nodepools") (cluster.region.getD "")
          then some 0 else maxRunners := hfrom.maxRunners.trans (maxRunners_capacityOf _ _ _ _)
    rw [Rendered.capacity, hmax, hfrom.typed.1]
    simp only [Option.any_some, Bool.or_eq_true, decide_eq_true_eq]
    split <;> rfl
  unfold addDefFile
  rw [hparse]
  change Except.ok _ = _
  rw [hkey, hvalue]

/-- One definition after the other. -/
theorem foldlM_of_render {defs : List (String × DefFile RunnerDef)} {outs : List Rendered}
    (hrender : List.Forall₂ (fun d out =>
      render repo file clusterId cluster runnerImage d.1 d.2 = .ok (some out)) defs outs)
    (result : List (String × ℤ))
    (hnames : (result.map (·.1) ++ outs.map (·.scaleSetName)).Nodup) :
    (defs.map (·.2)).foldlM (addDefFile (resolveRunnerNamePrefix file cluster) clusterId
        cluster.pauseRunners
        (loadExcludedInstanceTypes (repo.nodepoolDefs "nodepools") (cluster.region.getD "")))
        result =
      .ok (result ++ outs.map fun out => (out.scaleSetName, out.capacity)) := by
  induction hrender generalizing result with
  | nil => simp [pure, Except.pure]
  | @cons d out defs outs hd _ ih =>
    have hnew : out.scaleSetName ∉ result.map (·.1) := fun hmem =>
      (List.nodup_append.mp hnames).2.2 _ hmem _ (by simp) rfl
    rw [List.map_cons, List.foldlM_cons, addDefFile_of_render hd, setItem_of_notMem _ hnew]
    refine (ih _ (by simpa using hnames)).trans ?_
    simp

/-- The map restores what renders: for every definition of the cluster, in order, the name of its
scale set with its capacity. -/
theorem buildMaxRunnersMap_eq (hfound : file.clusters.lookup clusterId = some cluster)
    {outs : List Rendered}
    (hrender : List.Forall₂ (fun d out =>
      render repo file clusterId cluster runnerImage d.1 d.2 = .ok (some out))
      (cluster.runnerDefs repo) outs)
    (hnames : (outs.map (·.scaleSetName)).Nodup) :
    buildMaxRunnersMap repo file clusterId =
      .ok (outs.map fun out => (out.scaleSetName, out.capacity)) := by
  have hdefs : (cluster.enabledModules "arc-runners").flatMap repo.runnerDefs =
      (cluster.runnerDefs repo).map (·.2) := by
    simp [ClusterConfig.runnerDefs, List.map_flatMap, Function.comp_def]
  unfold buildMaxRunnersMap
  rw [hfound]
  dsimp only
  rw [hdefs]
  exact foldlM_of_render hrender [] (by simpa using hnames)

end Map

/-! ### A cluster with three definitions -/

/-- A definition for the instance types of a module. -/
def runnerOf (name instanceType : String) (maxRunners : Option MaxRunners) : DefFile RunnerDef where
  name := name ++ ".yaml"
  content := .ok {
    name := some name
    instanceType := some instanceType
    memory := "64Gi"
    maxRunners := maxRunners }

/-- One definition without a bound, one with a bound for each cluster, and one whose instance type
the region leaves out. -/
def threeDefs : Repo where
  nodepoolDefs m :=
    if m = "nodepools" then
      [⟨"p5.yaml", .ok { fleet := some ⟨some "p5", ["us-west-1"], ["p5.48xlarge"]⟩ }⟩]
    else []
  runnerDefs m :=
    if m = "arc-runners" then [runnerOf "l_x86" "m7i.48xlarge" none,
      runnerOf "l_b200" "p6.48xlarge" (some (.mapping [("default", .int 8), ("west", .int 4)])),
      runnerOf "l_h100" "p5.48xlarge" (some (.value (.int 16)))]
    else []
  runnerNames m := by split <;> simp [runnerOf]

def westCluster : ClusterConfig where
  region := some "us-west-1"
  modules := ["nodepools", "arc-runners"]
  arcRunners := some { runnerNamePrefix := some "mt-" }

def westFile : ClustersFile where
  defaults := {}
  clusters := [("west", westCluster)]
  ids := by decide

theorem buildMaxRunnersMap_threeDefs : ∃ outs : List Rendered,
    buildMaxRunnersMap threeDefs westFile "west" =
        .ok (outs.map fun out => (out.scaleSetName, out.capacity)) ∧
      (outs.map fun out => (out.scaleSetName, out.capacity)) =
        [("mt-l-x86", maxInt32), ("mt-l-b200", 4), ("mt-l-h100", 0)] := by
  refine ⟨[_, _, _], @buildMaxRunnersMap_eq threeDefs westFile "west" "runner" westCluster rfl
    [_, _, _] (.cons (by with_unfolding_all rfl) (.cons (by with_unfolding_all rfl)
      (.cons (by with_unfolding_all rfl) .nil))) ?_, ?_⟩
  · decide +kernel
  · decide +kernel

end CiInfra.Runners
