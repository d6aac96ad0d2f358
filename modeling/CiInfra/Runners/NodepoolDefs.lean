import Mathlib.Data.List.Basic
import Mathlib.Data.List.Nodup
import Mathlib.Data.Rat.Defs

/-!
# The clusters file

`clusters.yaml` as far as the runner modules read it. A key that is absent and one that is null are
not told apart, since the programs that share the file do not.
-/

namespace CiInfra.Runners

/-- An `arc-runners` block. -/
structure ArcRunners where
  githubConfigUrl : Option String := none
  githubSecretName : Option String := none
  runnerNamePrefix : Option String := none
  runnerGroup : Option String := none
  schedulerName : Option String := none
  deriving DecidableEq

/-- A YAML scalar that is read as a number. -/
inductive Scalar
  | number (q : ℚ)
  | text (s : String)
  deriving DecidableEq

/-- A cluster. -/
structure ClusterConfig where
  region : Option String := none
  /-- `cfg.get("modules") or []`. -/
  modules : List String := []
  arcRunners : Option ArcRunners := none
  /-- `bool(cfg.get("pause_runners"))`. -/
  pauseRunners : Bool := false
  proactiveCapacityMax : Option ℤ := none
  /-- `capacity_aware_age_threshold_seconds`. -/
  ageThresholdSeconds : ℤ := 900
  /-- `capacity_aware_fresh_multiplier` in the block of each module that has one. -/
  freshMultipliers : List (String × Scalar) := []
  deriving DecidableEq

/-- `defaults`. -/
structure Defaults where
  region : Option String := none
  arcRunners : Option ArcRunners := none

/-- `clusters.yaml`. -/
structure ClustersFile where
  defaults : Defaults
  /-- `clusters`, in the order of the file. -/
  clusters : List (String × ClusterConfig)
  ids : (clusters.map (·.1)).Nodup

/-- `resolve_value(cluster_cfg, defaults, "arc-runners") or {}`: the block of the cluster as a whole
if it has one, else that of the defaults. -/
def ClustersFile.resolveArcRunners (file : ClustersFile) (cfg : ClusterConfig) : ArcRunners :=
  (cfg.arcRunners <|> file.defaults.arcRunners).getD {}

/-- The runner name prefix that a cluster renders with. -/
def ClustersFile.runnerNamePrefix (file : ClustersFile) (cfg : ClusterConfig) : String :=
  (file.resolveArcRunners cfg).runnerNamePrefix.getD ""

/-- The modules of a name: the base module and its variants. -/
def ClusterConfig.enabledModules (cfg : ClusterConfig) (name : String) : List String :=
  cfg.modules.filter fun m => m == name || (name ++ "-").toList.isPrefixOf m.toList

/-- `s.removesuffix(suffix)`. -/
def removesuffix (s suffix : String) : String :=
  if suffix.toList.isSuffixOf s.toList then
    String.ofList (s.toList.take (s.length - suffix.length))
  else s

end CiInfra.Runners

/-!
## Node pool definitions

The definition files of the `nodepools*` modules, the fleets that they contribute in a region, and
the fleet that a runner is placed on.
-/

namespace CiInfra.Runners

/-- A definition file: its name, and its content or the parse error. -/
structure DefFile (α : Type) where
  name : String
  content : Except String α

/-- A `fleet`, with the types of its instances. -/
structure Fleet where
  name : Option String
  excludeRegions : List String := []
  instances : List String

/-- A legacy `nodepool`. -/
structure Nodepool where
  instanceType : Option String
  excludeRegions : List String := []

/-- A node pool definition. It has one of the three shapes. -/
structure NodepoolDef where
  fleet : Option Fleet := none
  fleets : List Fleet := []
  nodepool : Option Nodepool := none

/-- `is_excluded_for_region`. -/
def isExcludedForRegion (excludeRegions : List String) (region : String) : Bool :=
  region != "" && excludeRegions.contains region

/-- `_collect_excluded_from_fleet`. -/
def Fleet.excluded (fleet : Fleet) (region : String) : List String :=
  if isExcludedForRegion fleet.excludeRegions region then fleet.instances.filter (· ≠ "") else []

/-- The instance types of a definition that a region excludes. -/
def NodepoolDef.excluded (d : NodepoolDef) (region : String) : List String :=
  (d.fleet.toList ++ d.fleets).flatMap (·.excluded region) ++ d.nodepool.toList.flatMap fun p =>
    if isExcludedForRegion p.excludeRegions region then
      p.instanceType.toList.filter (· ≠ "")
    else []

/-- `load_excluded_instance_types`. A file that does not parse is skipped with a warning. -/
def loadExcludedInstanceTypes (files : List (DefFile NodepoolDef)) (region : String) :
    List String :=
  if region = "" then []
  else files.flatMap fun f =>
    match f.content with
    | .ok d => d.excluded region
    | .error _ => []

/-- `instance_type.split(".")[0]`. -/
def family (instanceType : String) : String :=
  String.ofList (instanceType.toList.takeWhile (· ≠ '.'))

/-- The names that a list of fleets contributes in a region. -/
def fleetNames (fleets : List Fleet) (region : String) : List String :=
  (fleets.filter fun f => !isExcludedForRegion f.excludeRegions region).flatMap fun f =>
    f.name.toList.filter (· ≠ "")

/-- `iter_fleet_names`. -/
def NodepoolDef.iterFleetNames (d : NodepoolDef) (region : String) : List String :=
  fleetNames d.fleet.toList region ++ fleetNames d.fleets region ++
    d.nodepool.toList.flatMap fun p =>
      if isExcludedForRegion p.excludeRegions region then []
      else (p.instanceType.toList.filter (· ≠ "")).map family

/-! ### The fleet of a runner -/

/-- `RESERVED_NODE_FLEET_NAMES`. -/
def reservedNodeFleetNames : List String := ["c7i-runner"]

def isLabelChar (c : Char) : Bool := c.isLower || c.isDigit || c == '-'

/-- A DNS-1123 label. -/
def isLabel (cs : List Char) : Bool :=
  !cs.isEmpty && cs.length ≤ 63 && cs.all isLabelChar && cs.head? != some '-' &&
    cs.getLast? != some '-'

/-- `_NODE_FLEET_PATTERN.match`. The `$` of the pattern also matches before a final newline. -/
def matchesNodeFleetPattern (cs : List Char) : Bool :=
  isLabel cs || (cs.getLast? == some '\n' && isLabel cs.dropLast)

/-- `validate_node_fleet`: the error, if there is one. -/
def validateNodeFleet (value : String) : Option String :=
  if !matchesNodeFleetPattern value.toList then
    some ("must be a DNS-1123 label (lowercase alphanumeric and dashes, " ++
      "1-63 chars, must start and end with alphanumeric)")
  else if value ∈ reservedNodeFleetNames then
    some ("'" ++ value ++ "' is reserved and cannot be used as an override")
  else none

/-- `derive_fleet_name`. -/
def deriveFleetName (instanceType : String) (nodeFleet : Option String) : Except String String :=
  match nodeFleet with
  | some value =>
    match validateNodeFleet value with
    | some err => .error ("node_fleet override invalid (" ++ err ++ "): got '" ++ value ++ "'")
    | none => .ok value
  | none => .ok (family instanceType)

/-- `derive_release_runner_group`. -/
def deriveReleaseRunnerGroup (clusterRunnerGroup : Option String) : String :=
  match clusterRunnerGroup.filter (· ≠ "") with
  | some group => group ++ "-release-runners"
  | none => "default"

end CiInfra.Runners
