import CiInfra.Lib.PythonNumber
import CiInfra.PypiCache.WantsCollector
import Mathlib.Data.Finset.Union
import Mathlib.Data.List.Infix

/-!
# Whether a release has to be built

The collector asks the package index for the files of a release. The release has to be built unless
there is a wheel of pure Python, or the wheels cover all pairs of an interpreter and an
architecture. What a wheel covers is read from the text of its name.
-/

namespace WantsCollector

open Regex PythonNumber

/-! ### Platforms -/

/-- Versions of glibc are compared by their first numbers, and then by their second ones. -/
def versionLe (v w : ℤ × ℤ) : Bool := v.1 < w.1 || (v.1 = w.1 && v.2 ≤ w.2)

/-- Legacy manylinux aliases, and the versions of glibc for which they stand. -/
def manylinuxAliases : List (Text × (ℤ × ℤ)) :=
  [("manylinux1".toList, (2, 5)), ("manylinux2010".toList, (2, 12)),
    ("manylinux2014".toList, (2, 17))]

def isWordChar (c : Char) : Bool := c.isAlphanum || c = '_'

/-- `manylinux_(\d+)_(\d+)_(\w+)` -/
def reManylinux : Regex :=
  seq (text "manylinux_".toList) (seq (group 1 (plus (char Char.isDigit))) (seq (lit '_')
    (seq (group 2 (plus (char Char.isDigit))) (seq (lit '_') (group 3 (plus (char isWordChar)))))))

/-- What follows the last place where one text occurs in another one. -/
def afterLast? (sep : Text) : Text → Option Text
  | [] => none
  | c :: s =>
    (afterLast? sep s).or (if sep <+: c :: s then some ((c :: s).drop sep.length) else none)

/-- The two numbers of a target such as `2_17`. Other texts raise an exception. -/
def targetVersion (target : Text) : Option (ℤ × ℤ) :=
  match target.splitOn '_' with
  | major :: minor :: _ => do
    let major ← int? major
    let minor ← int? minor
    return (major, minor)
  | _ => none

/-- Whether a platform tag is compatible with the target, and the architecture, if it has one. -/
def isManylinuxCompatible (platformTag target : Text) : Option (Bool × Option Text) := do
  let targetVersion ← targetVersion target
  match manylinuxAliases.find? fun a => a.1 <:+: platformTag with
  | some (name, version) =>
    let arch := ((afterLast? name platformTag).getD platformTag).dropWhile (· = '_')
    return (versionLe version targetVersion, if arch = [] then none else some arch)
  | none =>
    match reManylinux.search platformTag with
    | some m =>
      let major ← int? (m.capture 1)
      let minor ← int? (m.capture 2)
      return (versionLe (major, minor) targetVersion, some (m.capture 3))
    | none => return (false, none)

/-! ### Files -/

/-- A file of a release, as the index describes it. -/
structure Entry where
  packagetype : Option Text
  filename : Text

def Entry.isWheel (e : Entry) : Bool := e.packagetype = some "bdist_wheel".toList

/-- What precedes the last dot. -/
def beforeLastDot (s : Text) : Text :=
  if '.' ∈ s then (s.reverse.dropWhile (· ≠ '.')).tail.reverse else s

/-- The parts of the name of a wheel, the last one first. -/
def partsOf (filename : Text) : List Text :=
  if ".whl".toList <:+ filename then ((beforeLastDot filename).splitOn '-').reverse else []

def isPurePython (filename : Text) : Bool :=
  "-py3-none-any.whl".toList <:+ filename || "-none-any".toList <:+: filename

/-- The pairs that are covered after one more file. -/
def cover (matrix : Finset (Text × Text)) (target : Text) (covered : Finset (Text × Text))
    (e : Entry) : Option (Finset (Text × Text)) :=
  if e.isWheel then
    match partsOf e.filename with
    | platformTag :: _ :: pythonTag :: _ :: _ :: _ => do
      let (compatible, arch) ← isManylinuxCompatible platformTag target
      match compatible, arch with
      | true, some arch =>
        return covered ∪ matrix.filter fun pair => arch = pair.2 ∧ pair.1 <:+: pythonTag
      | _, _ => return covered
    | _ => return covered
  else return covered

/-- What is raised: the exception of a request, or one about the target. -/
inductive PypiError (ε : Type)
  | request (e : ε)
  | target

/-- Check the index for wheels: whether the package has to be built. -/
def checkPypi {ε : Type} (package version : Text) (matrix : Finset (Text × Text)) (target : Text)
    (httpGet : Text → Except ε (ℕ × List Entry)) : Except (PypiError ε) Bool :=
  match httpGet ("https://pypi.org/pypi/".toList ++ (package ++ '/' :: (version ++
      "/json".toList))) with
  | .error e => .error (.request e)
  | .ok (status, urls) =>
    if status = 404 then .ok false
    else if urls.any fun e => e.isWheel && isPurePython e.filename then .ok false
    else
      match urls.foldlM (cover matrix target) ∅ with
      | none => .error .target
      | some covered => .ok (covered ≠ matrix)

end WantsCollector
