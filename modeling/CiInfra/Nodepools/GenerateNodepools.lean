import CiInfra.Capacity.Overhead
import CiInfra.Lib.Overwriting
import CiInfra.Runners.NodepoolDefs

/-!
# Generating node pools

The manifests that are generated from the definitions of one `nodepools*` module: a file for every
instance of every fleet, and for every legacy definition.
-/

namespace CiInfra.Nodepools.Generator

open Runners (DefFile family isExcludedForRegion)

/-- The keys of `INSTANCE_SPECS`. -/
def knownTypes : List String := Capacity.instanceSpecs.map Prod.fst

/-! ### Fleets -/

/-- The two sections of a fleet. -/
inductive Section
  | instances
  | release
  deriving DecidableEq

/-- The key of the section in a definition. -/
def Section.key : Section → String
  | .instances => "instances"
  | .release => "release"

/-- The suffix of the names of its node pools. -/
def Section.nameSuffix : Section → String
  | .instances => ""
  | .release => "-release"

/-- The labels that its node pools have in addition. -/
def Section.extraLabels : Section → List (String × String)
  | .instances => []
  | .release => [("osdc.io/runner-class", "release")]

/-- What an instance may say about itself. -/
structure Options where
  extraLabels : List (String × String) := []
  capacityType : String := "on-demand"
  userDataScript : Option String := none

/-- An instance as it is written in a definition. -/
structure RawInstance extends Options where
  type : Option String
  weight : Option ℤ
  nodeDiskSize : Option ℤ

/-- A fleet as it is written in a definition. -/
structure RawFleet where
  name : Option String
  arch : Option String
  instances : List RawInstance := []
  release : List RawInstance := []
  excludeRegions : List String := []

/-- An instance of a known type. -/
structure Instance extends Options where
  type : String
  type_mem : type ∈ knownTypes
  weight : ℤ
  nodeDiskSize : ℤ

/-- A fleet that is valid. -/
structure Fleet where
  name : String
  arch : String
  instances : List Instance
  release : List Instance

/-- `fleet_data.get(section, [])`. -/
def RawFleet.get (f : RawFleet) : Section → List RawInstance
  | .instances => f.instances
  | .release => f.release

@[inherit_doc RawFleet.get]
def Fleet.get (f : Fleet) : Section → List Instance
  | .instances => f.instances
  | .release => f.release

/-- The value of a required key of an instance. -/
def requiredKey {α : Type} (value : Option α) (fleetName fileName : String) (s : Section) (i : ℕ)
    (key : String) : Except String α :=
  match value with
  | some a => .ok a
  | none => .error ("Fleet '" ++ fleetName ++ "' in " ++ fileName ++ ", " ++ s.key ++ "[" ++
      toString i ++ "]: missing required key '" ++ key ++ "'")

/-- The checks of one instance. -/
def validateInstance (fleetName fileName : String) (s : Section) (i : ℕ) (inst : RawInstance) :
    Except String Instance := do
  let type ← requiredKey inst.type fleetName fileName s i "type"
  let weight ← requiredKey inst.weight fleetName fileName s i "weight"
  let nodeDiskSize ← requiredKey inst.nodeDiskSize fleetName fileName s i "node_disk_size"
  if h : type ∈ knownTypes then
    return { inst.toOptions with type, type_mem := h, weight, nodeDiskSize }
  else
    throw ("Fleet '" ++ fleetName ++ "' in " ++ fileName ++ ": instance type '" ++ type ++
      "' not found in INSTANCE_SPECS. Add it to scripts/python/instance_specs.py before using it.")

/-- The checks of the instances of a section, from a position on. -/
def validateInstances (fleetName fileName : String) (s : Section) :
    ℕ → List RawInstance → Except String (List Instance)
  | _, [] => return []
  | i, inst :: insts => do
    let valid ← validateInstance fleetName fileName s i inst
    return valid :: (← validateInstances fleetName fileName s (i + 1) insts)

/-- `_validate_fleet`. -/
def validateFleet (f : RawFleet) (fileName : String) : Except String Fleet := do
  let some name := f.name
    | throw ("Fleet in " ++ fileName ++ ": missing required key 'name'")
  let some arch := f.arch
    | throw ("Fleet in " ++ fileName ++ ": missing required key 'arch'")
  let instances ← validateInstances name fileName .instances 0 f.instances
  let release ← validateInstances name fileName .release 0 f.release
  return { name, arch, instances, release }

/-! ### Names -/

/-- `instance_type.split(".", 1)[1]`. -/
def instanceSize (instanceType : String) : String :=
  String.ofList ((instanceType.toList.dropWhile (· ≠ '.')).drop 1)

/-- `s.replace(".", "-")`. -/
def dashed (s : String) : String := String.ofList (s.toList.map fun c => if c = '.' then '-' else c)

/-- The key of a size in a section. -/
def sizeKey (s : Section) (inst : Instance) : String × String :=
  (instanceSize inst.type, s.nameSuffix)

/-- What is added to `families_by_key`, in order. -/
def Fleet.familiesByKey (f : Fleet) : List ((String × String) × String) :=
  [Section.instances, Section.release].flatMap fun s =>
    (f.get s).map fun inst => (sizeKey s inst, family inst.type)

/-- `_fleet_size_collisions`. -/
def fleetSizeCollisions (f : Fleet) : List (String × String) :=
  (f.familiesByKey.map Prod.fst).dedup.filter fun key =>
    1 < ((f.familiesByKey.filter (·.1 = key)).map Prod.snd).dedup.length

/-- `_fleet_nodepool_name`. -/
def fleetNodepoolName (fleetName instanceType nameSuffix : String) (qualifyFamily : Bool) :
    String :=
  let name :=
    if fleetName = family instanceType then dashed instanceType
    else if qualifyFamily then
      fleetName ++ "-" ++ family instanceType ++ "-" ++ dashed (instanceSize instanceType)
    else fleetName ++ "-" ++ dashed (instanceSize instanceType)
  if nameSuffix = "" then name else name ++ nameSuffix

/-! ### Manifests -/

/-- A node pool definition, as far as it tells manifests apart. -/
structure NodepoolDef extends Options where
  name : String
  instanceType : String
  fleetName : String
  weight : Option ℤ

/-- The pair of a NodePool and an EC2NodeClass. Both have the name as their `metadata.name`. -/
structure Manifest where
  name : String
  instanceType : String
  fleetName : String
  weight : Option ℤ
  extraLabels : List (String × String)
  capacityType : String
  deriving DecidableEq

/-- The answers of the file system: the paths of the module that exist, and the files that can be
written to the output directory. -/
structure FileSystem where
  present : String → Bool
  writable : String → Bool

/-- The directory of the manifests, and the count of them. -/
structure Output where
  directory : List (String × Manifest) := []
  /-- All that was written, in order, overwritten or not. -/
  emitted : List Manifest := []
  generated : ℕ := 0
  deriving DecidableEq

/-- `_build_fleet_nodepool_def`. -/
def buildFleetNodepoolDef (f : Fleet) (s : Section) (inst : Instance) : NodepoolDef where
  name := fleetNodepoolName f.name inst.type s.nameSuffix
    (fleetSizeCollisions f |>.contains (sizeKey s inst))
  instanceType := inst.type
  fleetName := f.name
  weight := some inst.weight
  extraLabels := Overwriting.writeAll inst.extraLabels s.extraLabels
  capacityType := inst.capacityType
  userDataScript := inst.userDataScript

/-- The manifest of a definition. -/
def NodepoolDef.manifest (d : NodepoolDef) : Manifest where
  name := d.name
  instanceType := d.instanceType
  fleetName := d.fleetName
  weight := d.weight
  extraLabels := d.extraLabels
  capacityType := d.capacityType

/-- `generate_nodepool_yaml`. -/
def generateNodepoolYaml (fs : FileSystem) (d : NodepoolDef) : Except String Manifest :=
  match d.userDataScript.filter (· ≠ "") with
  | some path =>
    if fs.present path then .ok d.manifest else .error ("user_data_script not found: " ++ path)
  | none => .ok d.manifest

/-- Put a manifest into its file. -/
def Output.put (out : Output) (m : Manifest) : Output where
  directory := Overwriting.write out.directory (m.name ++ ".yaml") m
  emitted := out.emitted ++ [m]
  generated := out.generated + 1

/-- Generate the manifest of a definition and write it. -/
def writeNodepool (fs : FileSystem) (out : Output) (d : NodepoolDef) : Except String Output := do
  let m ← generateNodepoolYaml fs d
  if fs.writable (m.name ++ ".yaml") then return out.put m
  else throw ("cannot write " ++ m.name ++ ".yaml")

/-- `_process_fleet`. -/
def processFleet (fs : FileSystem) (fileName region : String) (out : Output) (f : RawFleet) :
    Except String Output := do
  let fleet ← validateFleet f fileName
  if isExcludedForRegion f.excludeRegions region then return out
  let out ← fleet.instances.foldlM
    (fun out inst => writeNodepool fs out (buildFleetNodepoolDef fleet .instances inst)) out
  fleet.release.foldlM
    (fun out inst => writeNodepool fs out (buildFleetNodepoolDef fleet .release inst)) out

/-! ### Legacy definitions -/

/-- A legacy `nodepool` as it is written in a definition. -/
structure RawNodepool extends Options where
  name : Option String
  instanceType : Option String
  weight : Option ℤ := none
  excludeRegions : List String := []

/-- A legacy node pool that is valid. -/
def RawNodepool.toDef (p : RawNodepool) (name instanceType : String) : NodepoolDef where
  toOptions := p.toOptions
  name := name
  instanceType := instanceType
  fleetName := family instanceType
  weight := p.weight

/-- `_process_nodepool`. -/
def processNodepool (fs : FileSystem) (fileName region : String) (out : Output) (p : RawNodepool) :
    Except String Output := do
  let invalid := "Invalid " ++ fileName ++ ": missing 'name' or 'instance_type'"
  let some name := p.name.filter (· ≠ "") | throw invalid
  let some instanceType := p.instanceType.filter (· ≠ "") | throw invalid
  if isExcludedForRegion p.excludeRegions region then return out
  if instanceType ∈ knownTypes then writeNodepool fs out (p.toDef name instanceType)
  else
    throw ("Instance type '" ++ instanceType ++ "' in " ++ fileName ++
      " not found in INSTANCE_SPECS. Add it to scripts/python/instance_specs.py first.")

/-! ### The run -/

/-- The content of a definition file, with the keys that are there. -/
structure DefData where
  fleet : Option RawFleet := none
  fleets : Option (List RawFleet) := none
  nodepool : Option RawNodepool := none

/-- The output so far, and the names of the files without a definition. -/
structure Progress where
  out : Output := {}
  skipped : List String := []

/-- One definition file. The first key that is there counts. -/
def processFile (fs : FileSystem) (region : String) (p : Progress)
    (file : DefFile (Option DefData)) : Except String Progress := do
  match ← file.content with
  | none => return { p with skipped := p.skipped ++ [file.name] }
  | some data =>
    match data.fleet, data.fleets, data.nodepool with
    | some f, _, _ => return { p with out := ← processFleet fs file.name region p.out f }
    | none, some fleets, _ =>
      return { p with out := ← fleets.foldlM (processFleet fs file.name region) p.out }
    | none, none, some d => return { p with out := ← processNodepool fs file.name region p.out d }
    | none, none, none => return { p with skipped := p.skipped ++ [file.name] }

/-- The loop of `main` over the definition files, in the order of their names. The output directory
is empty at first. An error ends it. -/
def processFiles (fs : FileSystem) (region : String) (files : List (DefFile (Option DefData))) :
    Except String Progress :=
  files.foldlM (processFile fs region) {}

/-- `main`: the output, if the exit code is zero. -/
def main (fs : FileSystem) (region : String) (files : List (DefFile (Option DefData))) :
    Except String Output := do
  if files.isEmpty then throw "No definition files found"
  let p ← processFiles fs region files
  if p.skipped.isEmpty then return p.out
  else throw ("Aborting: " ++ toString p.skipped.length ++ " definition(s) were invalid: " ++
    ", ".intercalate p.skipped)

end CiInfra.Nodepools.Generator
