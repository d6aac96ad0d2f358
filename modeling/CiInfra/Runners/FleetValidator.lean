import CiInfra.Runners.Generate

/-!
# The fleets of the runners

Before anything is rendered, every runner definition of the cluster is checked against the fleets
that the enabled node pool modules contribute in its region. A definition whose instance type the
region excludes is skipped, since it renders without capacity.
-/

namespace CiInfra.Runners

/-- What `validate_cluster_runner_fleets` reports. -/
inductive FleetError
  | notFound (clusterId : String)
  | noNodepools (clusterId : String) (runnerModules : List String)
  | unparsedNodepoolDef (defFile : String) (error : String)
  | collision (name prior origin : String)
  | unparsedRunnerDef (clusterId moduleName defFile error : String)
  | invalidOverride (clusterId runner instanceType : String) (nodeFleet : Option String)
      (error : String)
  | orphan (clusterId runner instanceType effective : String) (nodeFleet : Option String)
      (available : List String)

/-- `_resolve_region`. -/
def ClustersFile.resolveRegion (file : ClustersFile) (cluster : ClusterConfig) : String :=
  (cluster.region.filter (· ≠ "")).getD (file.defaults.region.getD "")

/-- The node pool definitions of the modules, each with its module. -/
def nodepoolFiles (roots : List Repo) (modules : List String) :
    List (String × DefFile NodepoolDef) :=
  roots.flatMap fun root => modules.flatMap fun m => (root.nodepoolDefs m).map fun f => (m, f)

/-- `_collect_excluded_instance_types`. -/
def collectExcludedInstanceTypes (roots : List Repo) (modules : List String) (region : String) :
    List String :=
  roots.flatMap fun root => modules.flatMap fun m =>
    loadExcludedInstanceTypes (root.nodepoolDefs m) region

/-- The owner of each fleet so far, and the errors. -/
abbrev Owners := List (String × String) × List FleetError

/-- One fleet name of a file. -/
def register (origin : String) (owners : Owners) (name : String) : Owners :=
  match owners.1.lookup name with
  | none => (owners.1 ++ [(name, origin)], owners.2)
  | some prior =>
    if prior = origin then owners else (owners.1, owners.2 ++ [.collision name prior origin])

/-- One file. -/
def collectFile (region : String) (owners : Owners) (file : String × DefFile NodepoolDef) :
    Owners :=
  match file.2.content with
  | .error e => (owners.1, owners.2 ++ [.unparsedNodepoolDef file.2.name e])
  | .ok d => (d.iterFleetNames region).foldl (register (file.1 ++ "/" ++ file.2.name)) owners

/-- `_collect_available_fleets`. -/
def collectAvailableFleets (roots : List Repo) (modules : List String) (region : String) :
    List String × List FleetError :=
  let owners := (nodepoolFiles roots modules).foldl (collectFile region) ([], [])
  ((owners.1.map (·.1)).filter (· ∉ reservedNodeFleetNames), owners.2)

/-- A runner definition with its module. -/
abbrev OwnedDef := String × DefFile RunnerDef

/-- `(module, def_file.name)`. -/
def OwnedDef.key (d : OwnedDef) : String × String := (d.1, d.2.name)

/-- `by_key[key] = d`. -/
def setDef (defs : List OwnedDef) (d : OwnedDef) : List OwnedDef :=
  if defs.any fun e => e.key = d.key then defs.map fun e => if e.key = d.key then d else e
  else defs ++ [d]

/-- `_collect_runner_defs`: a file of a later root replaces its namesake. -/
def collectRunnerDefs (roots : List Repo) (modules : List String) : List OwnedDef :=
  ((roots.flatMap fun root => modules.flatMap fun m =>
    (root.runnerDefs m).map fun f => ((m, f) : OwnedDef)).foldl setDef []).mergeSort
      fun d e => d.1 < e.1 || (d.1 == e.1 && d.2.name ≤ e.2.name)

/-- `_validate_one_runner`. -/
def validateOneRunner (clusterId : String) (available excluded : List String) (d : OwnedDef) :
    Option FleetError :=
  match d.2.content with
  | .error e => some (.unparsedRunnerDef clusterId d.1 d.2.name e)
  | .ok r =>
    match r.name.filter (· ≠ ""), r.instanceType.filter (· ≠ "") with
    | some name, some instanceType =>
      if instanceType ∈ excluded then none
      else
        match deriveFleetName instanceType r.nodeFleet with
        | .error e => some (.invalidOverride clusterId name instanceType r.nodeFleet e)
        | .ok effective =>
          if effective ∈ available then none
          else some (.orphan clusterId name instanceType effective r.nodeFleet available.mergeSort)
    | _, _ => none

/-- `validate_cluster_runner_fleets`. The roots are the repository and, where there is one, that of
the consumer. -/
def validateClusterRunnerFleets (clusterId : String) (file : ClustersFile) (roots : List Repo) :
    List FleetError :=
  match file.clusters.lookup clusterId with
  | none => [.notFound clusterId]
  | some cluster =>
    let runnerModules := cluster.enabledModules "arc-runners"
    let nodepoolModules := cluster.enabledModules "nodepools"
    let region := file.resolveRegion cluster
    if runnerModules.isEmpty then []
    else if nodepoolModules.isEmpty then [.noNodepools clusterId runnerModules]
    else
      let excluded := collectExcludedInstanceTypes roots nodepoolModules region
      let (available, errors) := collectAvailableFleets roots nodepoolModules region
      errors ++ (collectRunnerDefs roots runnerModules).filterMap
        (validateOneRunner clusterId available excluded)

/-! ### What is collected -/

/-- The fleets that the enabled node pool modules of a cluster contribute in its region. -/
def generatedFleets (repo : Repo) (file : ClustersFile) (cluster : ClusterConfig) : List String :=
  (nodepoolFiles [repo] (cluster.enabledModules "nodepools")).flatMap fun f =>
    match f.2.content with
    | .ok d => d.iterFleetNames (file.resolveRegion cluster)
    | .error _ => []

/-- The fleets of the list so far come from the files. -/
theorem register_subset {names : List String} {origin name : String} {owners : Owners}
    (hname : name ∈ names) (h : ∀ o ∈ owners.1, o.1 ∈ names) :
    ∀ o ∈ (register origin owners name).1, o.1 ∈ names := by
  unfold register
  split
  · intro o ho
    rcases List.mem_append.mp ho with ho | ho
    · exact h o ho
    · obtain rfl := List.mem_singleton.mp ho
      exact hname
  · split <;> exact h

theorem foldl_register_subset {names news : List String} {origin : String} {owners : Owners}
    (hnews : ∀ name ∈ news, name ∈ names) (h : ∀ o ∈ owners.1, o.1 ∈ names) :
    ∀ o ∈ (news.foldl (register origin) owners).1, o.1 ∈ names := by
  induction news generalizing owners with
  | nil => exact h
  | cons name news ih =>
    rw [List.forall_mem_cons] at hnews
    exact ih hnews.2 (register_subset hnews.1 h)

theorem foldl_collectFile_subset {names : List String} {region : String}
    {files : List (String × DefFile NodepoolDef)} {owners : Owners}
    (hfiles : ∀ f ∈ files, ∀ d, f.2.content = .ok d → ∀ name ∈ d.iterFleetNames region,
      name ∈ names) (h : ∀ o ∈ owners.1, o.1 ∈ names) :
    ∀ o ∈ (files.foldl (collectFile region) owners).1, o.1 ∈ names := by
  induction files generalizing owners with
  | nil => exact h
  | cons f files ih =>
    rw [List.forall_mem_cons] at hfiles
    refine ih hfiles.2 ?_
    unfold collectFile
    split
    · exact h
    · exact foldl_register_subset (hfiles.1 _ ‹_›) h

/-- An available fleet is one that the modules contribute. -/
theorem mem_generatedFleets {repo : Repo} {file : ClustersFile} {cluster : ClusterConfig}
    {name : String} (h : name ∈ (collectAvailableFleets [repo] (cluster.enabledModules "nodepools")
      (file.resolveRegion cluster)).1) : name ∈ generatedFleets repo file cluster := by
  obtain ⟨o, ho, rfl⟩ := List.mem_map.mp (List.mem_of_mem_filter h)
  refine foldl_collectFile_subset (fun f hf d hd name hname => ?_) (by simp) o ho
  refine List.mem_flatMap.mpr ⟨f, hf, ?_⟩
  rw [hd]
  exact hname

theorem mem_setDef_self (defs : List OwnedDef) (d : OwnedDef) : d ∈ setDef defs d := by
  unfold setDef
  split
  · rename_i hany
    obtain ⟨e, he, hkey⟩ := List.any_eq_true.mp hany
    exact List.mem_map.mpr ⟨e, he, if_pos (of_decide_eq_true hkey)⟩
  · simp

theorem mem_setDef_of_ne {defs : List OwnedDef} {d e : OwnedDef} (he : e ∈ defs)
    (hne : e.key ≠ d.key) : e ∈ setDef defs d := by
  unfold setDef
  split
  · exact List.mem_map.mpr ⟨e, he, if_neg hne⟩
  · exact List.mem_append_left _ he

/-- A definition that shares its key with no other is collected. -/
theorem mem_foldl_setDef {new defs : List OwnedDef} {d : OwnedDef} (h : d ∈ defs ∨ d ∈ new)
    (hkey : ∀ e ∈ new, e.key = d.key → e = d) : d ∈ new.foldl setDef defs := by
  induction new generalizing defs with
  | nil => exact h.resolve_right (by simp)
  | cons e new ih =>
    rw [List.forall_mem_cons] at hkey
    refine ih ?_ hkey.2
    by_cases hsame : e.key = d.key
    · obtain rfl := hkey.1 hsame
      exact Or.inl (mem_setDef_self defs e)
    · rcases h with hd | hd
      · exact Or.inl (mem_setDef_of_ne hd (Ne.symm hsame))
      · exact Or.inr ((List.mem_cons.mp hd).resolve_left fun heq => hsame (heq ▸ rfl))

/-- Every definition of a module is collected. -/
theorem mem_collectRunnerDefs {repo : Repo} {modules : List String} {m : String}
    {f : DefFile RunnerDef} (hm : m ∈ modules) (hf : f ∈ repo.runnerDefs m) :
    ((m, f) : OwnedDef) ∈ collectRunnerDefs [repo] modules := by
  refine (List.mergeSort_perm _ _).mem_iff.mpr (mem_foldl_setDef (Or.inr ?_) ?_)
  · simpa using ⟨hm, hf⟩
  · rintro ⟨n, g⟩ hg hkey
    simp only [List.flatMap_cons, List.flatMap_nil, List.append_nil, List.mem_flatMap,
      List.mem_map] at hg
    obtain ⟨n', -, g', hg', heq⟩ := hg
    cases heq
    obtain ⟨rfl, hname⟩ := Prod.mk.inj hkey
    rw [List.inj_on_of_nodup_map (repo.runnerNames _) hg' hf hname]

/-! ### Orphans -/

/-- The definition renders, for a cluster, with some values. -/
def Renders (repo : Repo) (file : ClustersFile) (clusterId : String) (cluster : ClusterConfig)
    (runnerImage : String) (d : OwnedDef) (out : Rendered) : Prop :=
  d.1 ∈ cluster.enabledModules "arc-runners" ∧ d.2 ∈ repo.runnerDefs d.1 ∧
    render repo file clusterId cluster runnerImage d.1 d.2 = .ok (some out)

/-- What renders with capacity is placed on a fleet that the cluster has. -/
def NoOrphan (repo : Repo) (file : ClustersFile) (clusterId : String) (cluster : ClusterConfig)
    (runnerImage : String) : Prop :=
  ∀ d out, Renders repo file clusterId cluster runnerImage d out →
    out.maxRunners = some 0 ∨ out.nodeFleet ∈ generatedFleets repo file cluster

/-- The instance types that the validation skips. -/
def skippedInstanceTypes (repo : Repo) (file : ClustersFile) (cluster : ClusterConfig) :
    List String :=
  collectExcludedInstanceTypes [repo] (cluster.enabledModules "nodepools")
    (file.resolveRegion cluster)

/-- The instance types that render without capacity. -/
def idleInstanceTypes (repo : Repo) (cluster : ClusterConfig) : List String :=
  loadExcludedInstanceTypes (repo.nodepoolDefs "nodepools") (cluster.region.getD "")

/-- On a cluster that is not paused, the definitions that the validation skips and that render have
an instance type that renders without capacity, or a fleet that the cluster has anyway. -/
def SkippedAreIdle (repo : Repo) (file : ClustersFile) (clusterId : String)
    (cluster : ClusterConfig) (runnerImage : String) : Prop :=
  cluster.pauseRunners = false → ∀ d out, Renders repo file clusterId cluster runnerImage d out →
    ∀ r, d.2.content = .ok r → ∀ t ∈ r.instanceType,
      t ∈ skippedInstanceTypes repo file cluster → t ∉ idleInstanceTypes repo cluster →
        ∀ fleet, deriveFleetName t r.nodeFleet = .ok fleet →
          fleet ∈ generatedFleets repo file cluster

section Validated

variable {repo : Repo} {file : ClustersFile} {clusterId : String} {cluster : ClusterConfig}
  {runnerImage : String} {d : OwnedDef} {out : Rendered}

/-- A definition that renders and that passes the validation is skipped or has its fleet. -/
theorem skipped_or_generated (hfound : file.clusters.lookup clusterId = some cluster)
    (hvalid : validateClusterRunnerFleets clusterId file [repo] = [])
    (hrenders : Renders repo file clusterId cluster runnerImage d out) :
    out.instanceType ∈ skippedInstanceTypes repo file cluster ∨
      out.nodeFleet ∈ generatedFleets repo file cluster := by
  obtain ⟨hm, hf, hrender⟩ := hrenders
  obtain ⟨r, name, maxRunners, hcontent, hfrom⟩ := rendersFrom_of_generateRunner hrender
  have hmodules : (cluster.enabledModules "arc-runners").isEmpty = false := by
    rw [List.isEmpty_eq_false_iff]
    exact List.ne_nil_of_mem hm
  unfold validateClusterRunnerFleets at hvalid
  simp only [hfound, hmodules, Bool.false_eq_true, if_false] at hvalid
  split at hvalid
  · cases hvalid
  · have hnone := (List.filterMap_eq_nil_iff.mp (List.append_eq_nil_iff.mp hvalid).2) d
      (mem_collectRunnerDefs hm hf)
    have hname : r.name.filter (· ≠ "") = some name := by simp [hfrom.named]
    have htype : r.instanceType.filter (· ≠ "") = some out.instanceType := by simp [hfrom.typed]
    simp only [validateOneRunner, hcontent, hname, htype, hfrom.nodeFleet] at hnone
    split at hnone
    · exact Or.inl ‹_›
    · split at hnone
      · exact Or.inr (mem_generatedFleets ‹_›)
      · cases hnone

/-- What renders without capacity is paused or excluded. -/
theorem maxRunners_eq_zero_iff (hrenders : Renders repo file clusterId cluster runnerImage d out) :
    out.maxRunners = some 0 ↔
      cluster.pauseRunners = true ∨ out.instanceType ∈ idleInstanceTypes repo cluster := by
  obtain ⟨-, -, hrender⟩ := hrenders
  obtain ⟨r, name, maxRunners, -, hfrom⟩ := rendersFrom_of_generateRunner hrender
  rw [hfrom.maxRunners, maxRunners_capacityOf]
  have hne : maxRunners ≠ some 0 := by
    rintro rfl
    exact absurd (one_le_of_resolveMaxRunners hfrom.resolved) (by decide)
  change (if cluster.pauseRunners = true ∨ out.instanceType ∈ idleInstanceTypes repo cluster
    then some 0 else maxRunners) = some 0 ↔ _
  split
  · exact iff_of_true rfl ‹_›
  · exact iff_of_false hne ‹_›

end Validated

/-- A fleet that leaves out a region. -/
def p5Fleet : Fleet where
  name := some "p5"
  excludeRegions := ["us-west-1"]
  instances := ["p5.48xlarge"]

def h100Runner : DefFile RunnerDef where
  name := "l-h100.yaml"
  content := .ok { name := some "l-h100", instanceType := some "p5.48xlarge", memory := "115Gi" }

/-- A module with nodes for general use, and one with nodes that leave out a region. -/
def twoModules : Repo where
  nodepoolDefs m :=
    if m = "nodepools" then [⟨"m7i.yaml", .ok { fleet := some ⟨some "m7i", [], ["m7i.48xlarge"]⟩ }⟩]
    else if m = "nodepools-h100" then [⟨"p5.yaml", .ok { fleet := some p5Fleet }⟩]
    else []
  runnerDefs m := if m = "arc-runners-h100" then [h100Runner] else []
  runnerNames m := by split <;> simp

/-- A cluster with these modules in a region. -/
def clusterIn (region : String) : ClusterConfig where
  region := some region
  modules := ["nodepools", "nodepools-h100", "arc-runners-h100"]
  arcRunners := some { runnerNamePrefix := some "mt-" }

/-- A cluster in the region that is left out, and one in another. -/
def twoRegions : ClustersFile where
  defaults := {}
  clusters := [("west", clusterIn "us-west-1"), ("east", clusterIn "us-east-1")]
  ids := by decide

end CiInfra.Runners
