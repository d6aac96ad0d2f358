import CiInfra.PypiCache.MergeIndexes
import Mathlib.Data.List.TakeWhile

/-!
# What the merged answers list

The page and the JSON listing about a package should both list what the cache has, as it is, and
then one entry for each further name of the upstream index, and they should list the same names.
They do but for upstream names that are names of properties that every object inherits, and for
upstream URLs that end where the host does.
-/

namespace MergeIndexes

open FirstWins

variable {engine : Engine}

/-! ### Names under rewriting -/

theorem truthy_eq_some {s t : Text} : truthy s = some t ↔ s = t ∧ t ≠ [] := by
  unfold truthy
  split
  case isTrue hempty => simp [hempty]
  case isFalse hfull =>
    rw [Option.some_inj]
    exact ⟨fun h => ⟨h, h ▸ hfull⟩, And.left⟩

theorem lastPart_append_of_mem (s : Text) {t : Text} (hslash : '/' ∈ t) :
    lastPart (s ++ t) = lastPart t := by
  unfold lastPart
  rw [List.reverse_append, List.takeWhile_append, if_neg]
  intro hlength
  have hall := (List.takeWhile_prefix (· ≠ '/')).eq_of_length hlength
  have hnone := List.takeWhile_eq_self_iff.1 hall '/' (List.mem_reverse.2 hslash)
  simp at hnone

theorem lastPart_append_of_not_mem (s : Text) {t : Text} (hslash : '/' ∉ t) :
    lastPart (s ++ t) = lastPart s ++ t := by
  unfold lastPart
  rw [List.reverse_append, List.takeWhile_append_of_pos, List.reverse_append, List.reverse_reverse]
  intro c hc
  have hne : c ≠ '/' := fun h => hslash (h ▸ List.mem_reverse.1 hc)
  simpa using hne

theorem lastPart_of_not_mem {t : Text} (hslash : '/' ∉ t) : lastPart t = t := by
  simpa [lastPart] using lastPart_append_of_not_mem [] hslash

/-- A file name loses at most its beginning when the URL loses a host. -/
theorem extractFilename_append {host : Text} (rest : Text)
    (hhost : ∀ c ∈ lastPart host, c ≠ '#' ∧ c ≠ '?') :
    ∃ lost, extractFilename (host ++ rest) = lost ++ extractFilename rest := by
  unfold extractFilename
  by_cases hslash : '/' ∈ rest
  · exact ⟨[], by rw [lastPart_append_of_mem host hslash, List.nil_append]⟩
  · refine ⟨lastPart host, ?_⟩
    rw [lastPart_append_of_not_mem host hslash, lastPart_of_not_mem hslash,
      List.takeWhile_append_of_pos (by simpa using fun c hc => (hhost c hc).1),
      List.takeWhile_append_of_pos (by simpa using fun c hc => (hhost c hc).2)]

theorem all_upstreamHosts_plain :
    upstreamHosts.all (fun host => (lastPart host).all fun c => c ≠ '#' && c ≠ '?') = true := by
  decide +kernel

theorem extractFilename_rewriteUrl (url : Text) :
    ∃ lost, extractFilename url = lost ++ extractFilename (rewriteUrl url) := by
  unfold rewriteUrl
  split
  case h_2 => exact ⟨[], rfl⟩
  case h_1 host hfind =>
    have hbegins : host.isPrefixOf url = true := by simpa using List.find?_some hfind
    obtain ⟨rest, rfl⟩ := List.isPrefixOf_iff_prefix.1 hbegins
    rw [List.drop_left]
    have hplain := List.all_eq_true.1 all_upstreamHosts_plain host (List.mem_of_find?_eq_some hfind)
    exact extractFilename_append rest (by simpa using hplain)

/-- Rewriting keeps the name of a link, or shortens it. -/
theorem linkName_rewriteLink {link : Link} {n : Text} (h : linkName (rewriteLink link) = some n) :
    ∃ n', linkName link = some n' ∧ (n' = n ∨ n.length < n'.length) := by
  obtain ⟨rfl, hfull⟩ := truthy_eq_some.1 h
  obtain ⟨lost, hlost⟩ := extractFilename_rewriteUrl link.href
  refine ⟨extractFilename link.href, truthy_eq_some.2 ⟨rfl, ?_⟩, ?_⟩
  · rw [hlost]
    exact List.append_ne_nil_of_right_ne_nil lost hfull
  · rw [hlost]
    cases lost with
    | nil => exact .inl rfl
    | cons c lost =>
      refine .inr ?_
      rw [List.length_append, List.length_cons]
      change (extractFilename (rewriteUrl link.href)).length < _
      omega

@[simp] theorem fileName_rewriteFile (file : FileEntry) :
    fileName (rewriteFile file) = fileName file := by
  unfold rewriteFile
  split <;> rfl

/-! ### What a merge lists -/

section Merging

variable {α : Type} {name : α → Option Text} {rewrite : α → α} {own upstream : List α}

theorem appendUnseen_eq (seen : List Text) (l : List α) :
    appendUnseen engine name rewrite seen l =
      (joining name (seen ++ engine.inherited) l).map rewrite := by
  induction l generalizing seen with
  | nil => rfl
  | cons entry rest ih =>
    cases hname : name entry with
    | none => simp only [appendUnseen, joining, hname, ih, List.map_cons]
    | some fname =>
      simp only [appendUnseen, joining, hname]
      split
      · exact ih seen
      · rw [ih, List.map_cons, List.cons_append]

/-- The names that an upstream entry cannot have to be listed. -/
def takenNames (engine : Engine) (name : α → Option Text) (own : List α) : List Text :=
  own.filterMap name ++ engine.inherited

theorem mergeEntries_eq : mergeEntries engine name rewrite own upstream =
    own ++ (joining name (takenNames engine name own) upstream).map rewrite :=
  congrArg (own ++ ·) (appendUnseen_eq _ upstream)

theorem mem_takenNames {n : Text} :
    n ∈ takenNames engine name own ↔ some n ∈ own.map name ∨ n ∈ engine.inherited := by
  simp [takenNames]

/-- The merged list has the entries of the cache, and then of each further upstream name one. -/
def MergedOnce (name : α → Option Text) (rewrite : α → α) (own upstream merged : List α) : Prop :=
  ∃ joined : List α, joined.Sublist upstream ∧ JoinsOnce name own upstream joined ∧
    merged = own ++ joined.map rewrite

/-- No upstream name that the cache has not is one that every object has a property of. -/
def NewNamesUninherited (engine : Engine) (name : α → Option Text) (own upstream : List α) :
    Prop :=
  ∀ n ∈ engine.inherited, some n ∈ upstream.map name → some n ∈ own.map name

theorem NewNamesUninherited.mem_takenNames
    (h : NewNamesUninherited engine name own upstream) {n : Text}
    (hup : some n ∈ upstream.map name) :
    n ∈ takenNames engine name own ↔ some n ∈ own.map name := by
  rw [MergeIndexes.mem_takenNames]
  exact ⟨fun htaken => htaken.elim id fun hinherited => h n hinherited hup, .inl⟩

theorem mergedOnce_iff : MergedOnce name rewrite own upstream
    (mergeEntries engine name rewrite own upstream) ↔
      NewNamesUninherited engine name own upstream := by
  rw [mergeEntries_eq]
  constructor
  · rintro ⟨joined, -, honce, hmerged⟩ n hinherited hup
    by_contra hown
    have hlength := congrArg List.length (List.append_cancel_left hmerged)
    rw [List.length_map, List.length_map] at hlength
    have htaken := honce.not_mem_taken (fun k hk => mem_takenNames.2 (.inl hk)) hlength.symm
      hup hown
    exact htaken (mem_takenNames.2 (.inr hinherited))
  · intro h
    exact ⟨_, joining_sublist _ upstream, joinsOnce_joining fun k hk => h.mem_takenNames hk, rfl⟩

/-- The merged list has the names of both lists. -/
theorem mem_names_mergeEntries (h : NewNamesUninherited engine name own upstream)
    (hrewrite : ∀ entry ∈ joining name (takenNames engine name own) upstream,
      name (rewrite entry) = name entry) {n : Text} :
    some n ∈ (mergeEntries engine name rewrite own upstream).map name ↔
      some n ∈ own.map name ∨ some n ∈ upstream.map name := by
  have hjoined : ((joining name (takenNames engine name own) upstream).map rewrite).map name =
      (joining name (takenNames engine name own) upstream).map name := by
    rw [List.map_map]
    exact List.map_congr_left hrewrite
  rw [mergeEntries_eq, List.map_append, List.mem_append, hjoined, mem_map_joining]
  constructor
  · exact Or.imp_right And.left
  · rintro (hown | hup)
    · exact .inl hown
    · by_cases hown : some n ∈ own.map name
      · exact .inl hown
      · exact .inr ⟨hup, fun htaken => hown ((h.mem_takenNames hup).1 htaken)⟩

end Merging

/-! ### The page and the listing -/

/-- A package index, by its answers to clients that want a page and to those that want JSON. Both
are usable. -/
structure Index where
  page : Response
  listing : Response
  pageOk : page.isOk = true
  listingOk : listing.isOk = true

namespace Index

def links (index : Index) : List Link := parseHtmlLinks index.page.responseText

def files (engine : Engine) (index : Index) : List FileEntry :=
  parseFilesWithFallback engine index.listing.responseText

/-- Both answers are about the same files. -/
def SameFiles (engine : Engine) (index : Index) : Prop :=
  ∀ n, some n ∈ index.links.map linkName ↔ some n ∈ (index.files engine).map fileName

end Index

/-- Requests about one package, one for a page and one for JSON. -/
structure PackageRequests where
  uri : Text
  pageAccept : Option Text
  jsonAccept : Option Text
  notRoot : isRootSimple uri = false
  wantsPage : (Request.mk uri pageAccept).wantsJson = false
  wantsJson : (Request.mk uri jsonAccept).wantsJson = true

namespace PackageRequests

/-- What the page says. -/
def pageBody (requests : PackageRequests) (engine : Engine) (own upstream : Index) : Body :=
  (mergeSimple engine ⟨requests.uri, requests.pageAccept⟩ own.page upstream.page).body

/-- What the JSON listing says. -/
def jsonBody (requests : PackageRequests) (engine : Engine) (own upstream : Index) : Body :=
  (mergeSimple engine ⟨requests.uri, requests.jsonAccept⟩ own.listing upstream.listing).body

end PackageRequests

/-- The page and the listing each merge the two indexes, and they list the same names if each index
has the same files for both. -/
def MergesIndexes (engine : Engine) (requests : PackageRequests) (own upstream : Index) : Prop :=
  ∃ links metadata name files,
    requests.pageBody engine own upstream = .page (packageFromUri requests.uri) links ∧
    requests.jsonBody engine own upstream = .listing metadata name files ∧
    MergedOnce linkName rewriteLink own.links upstream.links links ∧
    MergedOnce fileName rewriteFile (own.files engine) (upstream.files engine) files ∧
    (own.SameFiles engine → upstream.SameFiles engine →
      ∀ n, some n ∈ links.map linkName ↔ some n ∈ files.map fileName)

/-- The first upstream link with a name that the cache has not keeps its name when its URL loses
the host. -/
def NewLinksKeepNames (own upstream : Index) : Prop :=
  ∀ n link, some n ∉ own.links.map linkName → firstWith linkName n upstream.links = some link →
    linkName (rewriteLink link) = some n

section Requests

variable {requests : PackageRequests} {own upstream : Index}

theorem pageBody_eq : requests.pageBody engine own upstream =
    .page (packageFromUri requests.uri) (mergeHtmlLinks engine own.links upstream.links) := by
  simp [PackageRequests.pageBody, mergeSimple, answerBoth, requests.notRoot, requests.wantsPage,
    own.pageOk, upstream.pageOk, Index.links]

theorem exists_jsonBody_eq : ∃ metadata name, requests.jsonBody engine own upstream =
    .listing metadata name
      (mergeJsonFiles engine (own.files engine) (upstream.files engine)) := by
  simp [PackageRequests.jsonBody, mergeSimple, answerBoth, requests.notRoot, requests.wantsJson,
    own.listingOk, upstream.listingOk, Index.files]

/-- The page and the listing merge the indexes if their lists do. -/
theorem mergesIndexes_iff_lists : MergesIndexes engine requests own upstream ↔
    NewNamesUninherited engine linkName own.links upstream.links ∧
    NewNamesUninherited engine fileName (own.files engine) (upstream.files engine) ∧
    (own.SameFiles engine → upstream.SameFiles engine → ∀ n,
      some n ∈ (mergeHtmlLinks engine own.links upstream.links).map linkName ↔
      some n ∈ (mergeJsonFiles engine (own.files engine) (upstream.files engine)).map
        fileName) := by
  obtain ⟨metadata, name, hjson⟩ := @exists_jsonBody_eq engine requests own upstream
  rw [← mergedOnce_iff, ← mergedOnce_iff]
  constructor
  · rintro ⟨links, metadata', name', files, hpage, hjson', hlinks, hfiles, hnames⟩
    rw [pageBody_eq] at hpage
    rw [hjson] at hjson'
    cases hpage
    cases hjson'
    exact ⟨hlinks, hfiles, hnames⟩
  · rintro ⟨hlinks, hfiles, hnames⟩
    exact ⟨_, metadata, name, _, pageBody_eq, hjson, hlinks, hfiles, hnames⟩

/-- The listing has the names of both indexes. -/
theorem mem_names_files
    (hfiles : NewNamesUninherited engine fileName (own.files engine) (upstream.files engine))
    (hown : own.SameFiles engine) (hup : upstream.SameFiles engine) {n : Text} :
    some n ∈ (mergeJsonFiles engine (own.files engine) (upstream.files engine)).map fileName ↔
      some n ∈ own.links.map linkName ∨ some n ∈ upstream.links.map linkName := by
  rw [hown n, hup n]
  exact mem_names_mergeEntries hfiles fun file _ => fileName_rewriteFile file

/-- The page lists the names of both indexes exactly if rewriting keeps the new ones. -/
theorem mem_names_links_iff
    (hlinks : NewNamesUninherited engine linkName own.links upstream.links) :
    (∀ n, some n ∈ (mergeHtmlLinks engine own.links upstream.links).map linkName ↔
      some n ∈ own.links.map linkName ∨ some n ∈ upstream.links.map linkName) ↔
      NewLinksKeepNames own upstream := by
  constructor
  · intro hnames n link hnew hfirst
    have hname : linkName link = some n := by simpa using List.find?_some hfirst
    have hmem := List.mem_map.2 ⟨link, List.mem_of_find?_eq_some hfirst, hname⟩
    have hjoins := (mem_joining_iff hname).2
      ⟨fun htaken => hnew ((hlinks.mem_takenNames hmem).1 htaken), hfirst⟩
    have hkept : ∀ e ∈ joining linkName (takenNames engine linkName own.links) upstream.links,
        ∀ k, linkName e = some k → linkName (rewriteLink e) = some k := by
      refine names_kept List.length (fun e _ k' => linkName_rewriteLink) ?_ ?_
      · intro e he e' he' k hk hk'
        have hfirst := ((mem_joining_iff hk).1 he).2
        rw [((mem_joining_iff hk').1 he').2] at hfirst
        exact (Option.some_inj.1 hfirst).symm
      · intro e he k hk
        obtain ⟨htaken, hfirst⟩ := (mem_joining_iff hk).1 he
        have hmem := List.mem_map.2 ⟨e, List.mem_of_find?_eq_some hfirst, hk⟩
        have hlisted := (hnames k).2 (.inr hmem)
        rw [mergeHtmlLinks, mergeEntries_eq, List.map_append, List.mem_append] at hlisted
        rcases hlisted with hown | hrenamed
        · exact absurd ((hlinks.mem_takenNames hmem).2 hown) htaken
        · simpa using hrenamed
    exact hkept link hjoins n hname
  · intro hkeep n
    refine mem_names_mergeEntries hlinks fun e he => ?_
    cases hname : linkName e with
    | none =>
      cases hrenamed : linkName (rewriteLink e) with
      | none => rfl
      | some k =>
        obtain ⟨k', hk', -⟩ := linkName_rewriteLink hrenamed
        rw [hname] at hk'
        cases hk'
    | some k =>
      obtain ⟨htaken, hfirst⟩ := (mem_joining_iff hname).1 he
      exact hkeep k e (fun hown => htaken (mem_takenNames.2 (.inl hown))) hfirst

end Requests

/-- The page and the listing merge the indexes exactly if no new upstream name is inherited, and,
where each index has the same files for both, the new links keep their names. -/
theorem mergesIndexes_iff (engine : Engine) (requests : PackageRequests) (own upstream : Index) :
    MergesIndexes engine requests own upstream ↔
      NewNamesUninherited engine linkName own.links upstream.links ∧
      NewNamesUninherited engine fileName (own.files engine) (upstream.files engine) ∧
      (own.SameFiles engine → upstream.SameFiles engine → NewLinksKeepNames own upstream) := by
  rw [mergesIndexes_iff_lists]
  refine and_congr_right fun hlinks => and_congr_right fun hfiles => ?_
  refine forall_congr' fun hown => forall_congr' fun hup => ?_
  rw [← mem_names_links_iff hlinks]
  exact forall_congr' fun n => by rw [mem_names_files hfiles hown hup]

/-- The properties that every JavaScript object inherits. -/
def objectProperties : List Text :=
  ["constructor", "hasOwnProperty", "isPrototypeOf", "propertyIsEnumerable", "toString",
    "valueOf", "__proto__"].map String.toList

/-- An engine that reads no text as JSON: both indexes answer with pages. -/
def pageEngine : Engine where
  inherited := objectProperties
  parseJson _ := none
  stringify _ := []

/-- An index that answers with one page. -/
def pageIndex (body : Text) (hbody : body ≠ []) : Index where
  page := ⟨200, body⟩
  listing := ⟨200, body⟩
  pageOk := by simpa [Response.isOk] using hbody
  listingOk := by simpa [Response.isOk] using hbody

def cffiRequests : PackageRequests where
  uri := "/simple/cffi/".toList
  pageAccept := none
  jsonAccept := some jsonType
  notRoot := by decide +kernel
  wantsPage := by decide +kernel
  wantsJson := by decide +kernel

/-- An upstream file named like a property of every object is in neither answer. -/
theorem not_mergesIndexes_constructor : ¬ MergesIndexes pageEngine cffiRequests
    (pageIndex "<a href=\"cffi-1.whl\">cffi-1.whl</a>".toList (by decide +kernel))
    (pageIndex "<a href=\"https://files.pythonhosted.org/constructor\">constructor</a>".toList
      (by decide +kernel)) := by
  intro hmerges
  have huninherited := (mergesIndexes_iff_lists.1 hmerges).1 "constructor".toList
    (by decide +kernel) (by decide +kernel)
  revert huninherited
  decide +kernel

end MergeIndexes
