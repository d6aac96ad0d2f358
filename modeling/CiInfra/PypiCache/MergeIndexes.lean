import CiInfra.Lib.FirstWins

/-!
# The merged package index

The pypi cache answers a request below `/simple/` from two indexes, its own and the upstream one:
it asks both and merges what they list. A client wants a page of links or a JSON listing, and an
index may answer with a page either way. Text is a list of characters.
-/

namespace MergeIndexes

abbrev Text := List Char

/-- The prefixes that upstream URLs lose. -/
def upstreamHosts : List Text :=
  ["https://files.pythonhosted.org".toList, "https://download.pytorch.org".toList]

/-! ### Links of a page -/

/-- A link of a page. The attributes contain the `href`. -/
structure Link where
  fullAttrs : Text
  href : Text
  text : Text
deriving DecidableEq

/-- What a regular expression takes for white space. -/
def isSpace (c : Char) : Bool :=
  c ∈ [' ', '\t', '\n', '\r', '\u000b', '\u000c', '\u00a0', '\u1680', '\u2028', '\u2029', '\u202f',
    '\u205f', '\u3000', '\ufeff'] || ('\u2000' ≤ c && c ≤ '\u200a')

/-- The text after a word, which may be in either case. -/
def afterWord : Text → Text → Option (Text × Text)
  | [], s => some ([], s)
  | _ :: _, [] => none
  | w :: word, c :: s =>
    if c.toLower = w then (afterWord word s).map fun (found, rest) => (c :: found, rest)
    else none

/-- A link from its `href` on, and the text after the link. -/
def hrefOn (s : Text) : Option (Link × Text) :=
  (afterWord "href=\"".toList s).bind fun (attr, s) =>
    match s.dropWhile (· ≠ '"') with
    | [] => none
    | quote :: tail =>
      match tail.dropWhile (· ≠ '>') with
      | [] => none
      | _ :: shown =>
        let href := s.takeWhile (· ≠ '"')
        let fullAttrs := attr ++ href ++ [quote] ++ tail.takeWhile (· ≠ '>')
        (afterWord "</a>".toList (shown.dropWhile (· ≠ '<'))).map fun (_, rest) =>
          (⟨fullAttrs, href, shown.takeWhile (· ≠ '<')⟩, rest)

/-- A link from its attributes on. The last `href` counts with which there is a link at all. -/
def attrsOn : Text → Option (Link × Text)
  | [] => none
  | c :: s =>
    let later := if c = '>' then none else attrsOn s
    match later with
    | some (link, rest) => some ({ link with fullAttrs := c :: link.fullAttrs }, rest)
    | none => hrefOn (c :: s)

/-- A link that the text begins with, and the text after it. -/
def linkAt (s : Text) : Option (Link × Text) :=
  (afterWord "<a".toList s).bind fun (_, s) =>
    match s with
    | [] => none
    | c :: tag => if isSpace c then attrsOn tag else none

/-- The links in a text, in at most so many steps. -/
def linksIn : ℕ → Text → List Link
  | 0, _ => []
  | _ + 1, [] => []
  | fuel + 1, c :: s =>
    match linkAt (c :: s) with
    | some (link, rest) => link :: linksIn fuel rest
    | none => linksIn fuel s

/-- The links of a page. -/
def parseHtmlLinks (body : Text) : List Link :=
  linksIn body.length body

/-! ### File names and URLs -/

/-- A text that is not empty. -/
def truthy (s : Text) : Option Text :=
  if s = [] then none else some s

/-- What follows the last slash. -/
def lastPart (s : Text) : Text :=
  (s.reverse.takeWhile (· ≠ '/')).reverse

/-- What a URL says after its last slash, without fragment and query. -/
def extractFilename (urlOrPath : Text) : Text :=
  ((lastPart urlOrPath).takeWhile (· ≠ '#')).takeWhile (· ≠ '?')

/-- The URL without the upstream host that it begins with. -/
def rewriteUrl (url : Text) : Text :=
  match upstreamHosts.find? (·.isPrefixOf url) with
  | some host => url.drop host.length
  | none => url

/-- The text without all occurrences of a word, in at most so many steps. -/
def without (word : Text) : ℕ → Text → Text
  | 0, s => s
  | _ + 1, [] => []
  | fuel + 1, c :: s =>
    if word.isPrefixOf (c :: s) then without word fuel ((c :: s).drop word.length)
    else c :: without word fuel s

/-- The attributes without the upstream hosts. -/
def rewriteAttrs (attrs : Text) : Text :=
  upstreamHosts.foldl (fun result host => without host result.length result) attrs

/-! ### JSON listings -/

/-- A field of a file that no function here reads: digests by algorithm, or JSON as it came. -/
inductive Value where
  | hashes (digests : List (Text × Text))
  | raw (json : Text)
deriving DecidableEq

/-- A file of a JSON listing. -/
structure FileEntry where
  filename : Option Text
  url : Option Text
  fields : List (Text × Value)
deriving DecidableEq

/-- A JSON listing, as far as it is there. -/
structure Listing where
  metadata : Option (List (Text × Text))
  name : Option Text
  files : Option (List FileEntry)
deriving DecidableEq

/-- What the JavaScript engine brings along: the properties that every object inherits, and how it
reads and writes a JSON listing. It reads nothing in a text that is none. -/
structure Engine where
  inherited : List Text
  parseJson : Text → Option Listing
  stringify : Listing → Text

/-- The digest in the fragment of a URL. -/
def fragmentHash (href : Text) : List (Text × Text) :=
  match href.dropWhile (· ≠ '#') with
  | [] => []
  | _ :: fragment =>
    match fragment.dropWhile (· ≠ '=') with
    | [] => []
    | _ :: digest =>
      let algo := fragment.takeWhile (· ≠ '=')
      if algo = [] ∨ digest = [] then [] else [(algo, digest)]

/-- The links of a page as files. A link without a file name is no file. -/
def htmlLinksToJsonFiles (links : List Link) : List FileEntry :=
  links.filterMap fun link => (truthy (extractFilename link.href)).map fun filename =>
    ⟨some filename, some link.href, [("hashes".toList, .hashes (fragmentHash link.href))]⟩

/-- The files in an answer, which may be a page although JSON was asked for. -/
def parseFilesWithFallback (engine : Engine) (responseText : Text) : List FileEntry :=
  if responseText = [] then []
  else
    match engine.parseJson responseText with
    | some data => data.files.getD []
    | none => htmlLinksToJsonFiles (parseHtmlLinks responseText)

def defaultMeta : List (Text × Text) := [("api-version".toList, "1.1".toList)]

/-- What a listing says about itself, and its name. -/
def extractJsonMeta (engine : Engine) (body : Text) : List (Text × Text) × Text :=
  match engine.parseJson body with
  | some data => (data.metadata.getD defaultMeta, data.name.getD [])
  | none => (defaultMeta, [])

/-! ### Merging -/

section Merging

variable {α : Type} (engine : Engine) (name : α → Option Text) (rewrite : α → α)

/-- The upstream entries that are not seen yet, rewritten. A name counts as seen, too, if every
object has a property of that name: the map of the names seen is an object. -/
def appendUnseen (seen : List Text) : List α → List α
  | [] => []
  | entry :: rest =>
    match name entry with
    | none => rewrite entry :: appendUnseen seen rest
    | some fname =>
      if fname ∈ seen ++ engine.inherited then appendUnseen seen rest
      else rewrite entry :: appendUnseen (fname :: seen) rest

/-- The entries of the cache, and those of the upstream index with other names. -/
def mergeEntries (localEntries upstreamEntries : List α) : List α :=
  localEntries ++
    appendUnseen engine name rewrite (localEntries.filterMap name) upstreamEntries

end Merging

def linkName (link : Link) : Option Text := truthy (extractFilename link.href)

def rewriteLink (link : Link) : Link where
  fullAttrs := rewriteAttrs link.fullAttrs
  href := rewriteUrl link.href
  text := link.text

def mergeHtmlLinks (engine : Engine) (localLinks upstreamLinks : List Link) : List Link :=
  mergeEntries engine linkName rewriteLink localLinks upstreamLinks

def fileName (file : FileEntry) : Option Text := file.filename.bind truthy

/-- A file with its URL rewritten, if it has one. -/
def rewriteFile (file : FileEntry) : FileEntry :=
  match file.url.bind truthy with
  | some url => { file with url := some (rewriteUrl url) }
  | none => file

def mergeJsonFiles (engine : Engine) (localFiles upstreamFiles : List FileEntry) :
    List FileEntry :=
  mergeEntries engine fileName rewriteFile localFiles upstreamFiles

def rewriteJsonFileUrls (files : List FileEntry) : List FileEntry := files.map rewriteFile

/-! ### The request handler -/

def replaceChar (c : Char) (replacement : Text) (s : Text) : Text :=
  s.flatMap fun c' => if c' = c then replacement else [c']

def escapeHtml (s : Text) : Text :=
  replaceChar '"' "&quot;".toList <| replaceChar '>' "&gt;".toList <|
    replaceChar '<' "&lt;".toList <| replaceChar '&' "&amp;".toList s

/-- A page of links. -/
def renderHtml (packageName : Text) (links : List Link) : Text :=
  "<!DOCTYPE html>\n<html><head><title>Links for ".toList ++ escapeHtml packageName ++
    "</title></head>\n<body>\n<h1>Links for ".toList ++ escapeHtml packageName ++
    "</h1>\n".toList ++
    (links.flatMap fun link =>
      "<a ".toList ++ link.fullAttrs ++ ">".toList ++ link.text ++ "</a>\n".toList) ++
    "</body>\n</html>\n".toList

/-- A page without the upstream hosts. -/
def rewriteHtmlBody (body : Text) : Text :=
  upstreamHosts.foldl (fun result host => without host result.length result) body

/-- An answer of one of the two indexes. -/
structure Response where
  status : ℕ
  responseText : Text

def Response.isOk (resp : Response) : Bool :=
  resp.status = 200 && resp.responseText ≠ []

structure Request where
  uri : Text
  accept : Option Text

def jsonType : Text := "application/vnd.pypi.simple.v1+json".toList

/-- The client accepts JSON. -/
def Request.wantsJson (r : Request) : Bool :=
  (r.accept.getD []).tails.any jsonType.isPrefixOf

/-- The request is for the list of all packages. -/
def isRootSimple (uri : Text) : Bool :=
  uri = "/simple/".toList || uri = "/simple".toList

def packageFromUri (uri : Text) : Text :=
  let package :=
    if "/simple/".toList.isPrefixOf uri then uri.drop "/simple/".toList.length else uri
  if package.getLast? = some '/' then package.dropLast else package

/-- What an answer says before it is written out. -/
inductive Body where
  | text (s : Text)
  | page (packageName : Text) (links : List Link)
  | listing (metadata : List (Text × Text)) (name : Text) (files : List FileEntry)
deriving DecidableEq

def Body.render (engine : Engine) : Body → Text
  | .text s => s
  | .page packageName links => renderHtml packageName links
  | .listing metadata name files => engine.stringify ⟨some metadata, some name, some files⟩

structure Answer where
  status : ℕ
  headersOut : List (Text × Text)
  body : Body
deriving DecidableEq

def headers (useJson : Bool) : List (Text × Text) :=
  [("Content-Type".toList, if useJson then jsonType else "text/html; charset=utf-8".toList),
    ("X-Merged-Index".toList, "true".toList)]

/-- The answer about all packages. -/
def answerRoot (useJson : Bool) (localResp upstreamResp : Response) : Answer :=
  if upstreamResp.isOk then ⟨200, headers useJson, .text upstreamResp.responseText⟩
  else if localResp.isOk then ⟨200, headers useJson, .text localResp.responseText⟩
  else ⟨502, headers useJson, .text "No upstream available\n".toList⟩

/-- The answer when only the cache itself has one. -/
def answerLocal (engine : Engine) (useJson : Bool) (pkg : Text) (resp : Response) : Answer :=
  if useJson then
    ⟨200, headers useJson,
      .listing defaultMeta pkg (parseFilesWithFallback engine resp.responseText)⟩
  else ⟨200, headers useJson, .text resp.responseText⟩

/-- The name, or the package's if there is none. -/
def nameOr (name pkg : Text) : Text := (truthy name).getD pkg

/-- The answer when only the upstream index has one. -/
def answerUpstream (engine : Engine) (useJson : Bool) (pkg : Text) (resp : Response) : Answer :=
  if useJson then
    let files := parseFilesWithFallback engine resp.responseText
    let info := extractJsonMeta engine resp.responseText
    ⟨200, headers useJson, .listing info.1 (nameOr info.2 pkg) (rewriteJsonFileUrls files)⟩
  else ⟨200, headers useJson, .text (rewriteHtmlBody resp.responseText)⟩

/-- The answer when both have one. -/
def answerBoth (engine : Engine) (useJson : Bool) (pkg : Text)
    (localResp upstreamResp : Response) : Answer :=
  if useJson then
    let localFiles := parseFilesWithFallback engine localResp.responseText
    let upstreamFiles := parseFilesWithFallback engine upstreamResp.responseText
    let upstreamMeta := extractJsonMeta engine upstreamResp.responseText
    let jsonMeta :=
      if upstreamMeta.2 = [] then extractJsonMeta engine localResp.responseText else upstreamMeta
    ⟨200, headers useJson,
      .listing jsonMeta.1 (nameOr jsonMeta.2 pkg) (mergeJsonFiles engine localFiles upstreamFiles)⟩
  else
    let localLinks := parseHtmlLinks localResp.responseText
    let upstreamLinks := parseHtmlLinks upstreamResp.responseText
    ⟨200, headers useJson, .page pkg (mergeHtmlLinks engine localLinks upstreamLinks)⟩

/-- The answer to a request, given those of the two indexes. -/
def mergeSimple (engine : Engine) (r : Request) (localResp upstreamResp : Response) : Answer :=
  if isRootSimple r.uri then answerRoot r.wantsJson localResp upstreamResp
  else if !localResp.isOk && !upstreamResp.isOk then ⟨404, [], .text "Not Found\n".toList⟩
  else
    let pkg := packageFromUri r.uri
    if localResp.isOk && !upstreamResp.isOk then answerLocal engine r.wantsJson pkg localResp
    else if !localResp.isOk && upstreamResp.isOk then
      answerUpstream engine r.wantsJson pkg upstreamResp
    else answerBoth engine r.wantsJson pkg localResp upstreamResp

end MergeIndexes
