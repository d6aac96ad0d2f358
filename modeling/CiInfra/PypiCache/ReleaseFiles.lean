import CiInfra.PypiCache.Readings

/-!
# The files of a release

A wheel's name has five or six components with hyphens between them, of which only the version and
the build tag begin with a digit. The name of a source archive ends with its version. A version can
be spelled in any way without a hyphen, also percent-encoded.
-/

namespace WantsCollector

open Regex

/-! ### Versions -/

def isVersionChar (c : Char) : Bool := c.isAlphanum || c ∈ ['.', '_', '+', '!', '%']

/-- A version, as the name of a file spells it. -/
structure Version where
  text : Text
  begins : DigitFollows text
  spelled : text ∈ runs isVersionChar

/-- A version of numbers with dots between them, and then post and development releases. -/
def Version.IsPlain (v : Version) : Prop := v.text ∈ plainVersions

abbrev Number := {s : Text // s ∈ nonemptyRuns Char.isDigit}

/-! ### Names of files -/

/-- A component of a wheel's name. -/
structure Component where
  text : Text
  no_hyphen : '-' ∉ text
  no_slash : '/' ∉ text

/-- `name-version[-build]-python-abi-platform.whl`. A build tag begins with a digit, other tags
with a letter. -/
structure Wheel where
  name : Text
  name_ne_nil : name ≠ []
  name_chars : ∀ c ∈ name, isNameChar c = true ∧ c ≠ '-'
  version : Version
  build : Option {t : Component // DigitFollows t.text}
  python : {t : Component // ¬ DigitFollows t.text}
  abi : {t : Component // ¬ DigitFollows t.text}
  platform : {t : Component // ¬ DigitFollows t.text}

/-- What follows the build tag. -/
def Wheel.tagsText (w : Wheel) : Text :=
  w.python.1.text ++ '-' :: (w.abi.1.text ++ '-' :: (w.platform.1.text ++ ".whl".toList))

/-- What follows the version. -/
def Wheel.afterVersion (w : Wheel) : Text :=
  match w.build with
  | none => w.tagsText
  | some build => build.1.text ++ '-' :: w.tagsText

def Wheel.text (w : Wheel) : Text := w.name ++ '-' :: (w.version.text ++ '-' :: w.afterVersion)

/-- `name-version.tar.gz` or `name-version.zip`. -/
structure Sdist where
  name : Text
  name_ne_nil : name ≠ []
  name_chars : ∀ c ∈ name, isNameChar c = true
  version : Version
  suffix : Text
  suffix_mem : suffix ∈ [".tar.gz".toList, ".zip".toList]

def Sdist.text (s : Sdist) : Text := s.name ++ '-' :: (s.version.text ++ s.suffix)

/-- The file of a release. -/
inductive ReleaseFile
  | wheel (w : Wheel)
  | sdist (s : Sdist)

namespace ReleaseFile

def name : ReleaseFile → Text
  | wheel w => w.name
  | sdist s => s.name

def version : ReleaseFile → Version
  | wheel w => w.version
  | sdist s => s.version

def text : ReleaseFile → Text
  | wheel w => w.text
  | sdist s => s.text

end ReleaseFile

end WantsCollector
