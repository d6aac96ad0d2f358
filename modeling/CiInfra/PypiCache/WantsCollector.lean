import CiInfra.Lib.Regex

/-!
# What was asked for

The collector reads the log of the package index for what was downloaded. A line tells the path of
a request, and a pattern takes the name and the version of a release out of it. Text is a list of
ASCII characters.
-/

namespace WantsCollector

open Regex

abbrev Text := List Char

/-! ### Patterns -/

def isNameChar (c : Char) : Bool := c.isAlphanum || c ∈ ['_', '.', '-']

/-- A tab, a line break or another separator of ASCII, or a blank. -/
def isSpace (c : Char) : Bool := c ∈ (List.range' 9 5 ++ List.range' 28 5).map Char.ofNat

/-- The words that a later part of a version may begin with. -/
def suffixWords : List Text :=
  ["post".toList, "dev".toList, "a".toList, "b".toList, "rc".toList]

/-- How the name of an archive may end. -/
def archiveSuffixes : List Text := ["whl".toList, "tar.gz".toList, "zip".toList]

/-- `\d+(?:\.\d+)*(?:\.(?:post|dev|a|b|rc)\d*)*` -/
def versionPattern : Regex :=
  seq (plus (char Char.isDigit)) (seq (star (seq (lit '.') (plus (char Char.isDigit))))
    (star (seq (lit '.') (seq (words suffixWords) (star (char Char.isDigit))))))

/-- `[-.]+[^/]*\.(?:whl|tar\.gz|zip)` -/
def archivePattern : Regex :=
  seq (plus (char (· ∈ ['-', '.']))) (seq (star (char (· ≠ '/')))
    (seq (lit '.') (words archiveSuffixes)))

/-- What follows the last slash of a path, or another one. -/
def filePattern : Regex :=
  seq (group 1 (plus (char isNameChar))) (seq (lit '-') (seq (group 2 versionPattern)
    archivePattern))

/-- `RE_DOWNLOAD`. -/
def reDownload : Regex :=
  seq (text "GET /".toList) (seq (plus (char fun c => !isSpace c)) (seq (lit '/') filePattern))

/-- `RE_SIMPLE`. -/
def reSimple : Regex :=
  seq (text "GET /simple/".toList) (seq (group 1 (plus (char (· ≠ '/')))) (lit '/'))

/-! ### Lines -/

/-- Runs of hyphens, underscores and dots become single hyphens. The flag tells that the run has
already been replaced. -/
def collapse : Bool → Text → Text
  | _, [] => []
  | inRun, c :: s =>
    if c ∈ ['-', '_', '.'] then
      if inRun then collapse true s else '-' :: collapse true s
    else c :: collapse false s

/-- The name of a package, normalized. -/
def normalizeName (name : Text) : Text := (collapse false name).map Char.toLower

/-- Extract (normalized_package, version) from a log line, or `none`. -/
def parseLogLine (line : Text) : Option (Text × Text) :=
  match reDownload.search line with
  | some m => some (normalizeName (m.capture 1), m.capture 2)
  | none =>
    match reSimple.search line with
    | some m => some (normalizeName (m.capture 1), [])
    | none => none

example : parseLogLine "\"GET /cpu/Foo_Bar-1.0.post1-py3-none-any.whl HTTP/1.1\"".toList =
    some ("foo-bar".toList, "1.0.post1".toList) := by
  decide +kernel

example : parseLogLine "\"GET /cpu/foo-2.0.0.tar.gz HTTP/1.1\"".toList =
    some ("foo".toList, "2.0".toList) := by
  decide +kernel

end WantsCollector
