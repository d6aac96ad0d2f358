import Mathlib.Data.List.Chain
import CiInfra.PypiCache.RereadLinks

/-!
# The links of a page that was rendered

A page lists the links that it is rendered from, whatever the name on it, unless some link leaves
an `href` open and the next link closes it: then the two are read as one.
-/

namespace MergeIndexes

open Characters Separators

/-! ### The links of a text -/

theorem exists_of_linkAt_eq_some {s rest : Text} {link : Link} (h : linkAt s = some (link, rest)) :
    ∃ word c tag, s = word ++ c :: tag ∧ Spells "<a".toList word ∧
      attrsOn tag = some (link, rest) := by
  rw [linkAt, Option.bind_eq_some_iff] at h
  obtain ⟨⟨word, after⟩, hword, h⟩ := h
  obtain ⟨rfl, hspells⟩ := afterWord_eq_some.mp hword
  dsimp only at h
  split at h
  · cases h
  · rename_i c tag
    split at h
    · exact ⟨word, c, tag, rfl, hspells, h⟩
    · cases h

theorem length_lt_of_linkAt {s rest : Text} {link : Link} (h : linkAt s = some (link, rest)) :
    rest.length < s.length := by
  obtain ⟨word, c, tag, rfl, -, hattrs⟩ := exists_of_linkAt_eq_some h
  obtain ⟨before, a, ⟨⟨-, rfl⟩, -⟩, -⟩ := attrsOn_eq_some_iff.mp hattrs
  simp only [List.length_append, List.length_cons]
  omega

/-- More steps than the text is long change nothing. -/
theorem linksIn_eq {fuel fuel' : ℕ} {s : Text} (hfuel : s.length ≤ fuel)
    (hfuel' : s.length ≤ fuel') : linksIn fuel s = linksIn fuel' s := by
  induction fuel generalizing fuel' s with
  | zero =>
    obtain rfl := List.length_eq_zero_iff.mp (Nat.le_zero.mp hfuel)
    cases fuel' <;> rfl
  | succ fuel ih =>
    cases s with
    | nil => cases fuel' <;> rfl
    | cons c s =>
      cases fuel' with
      | zero => cases hfuel'
      | succ fuel' =>
        rw [List.length_cons] at hfuel hfuel'
        simp only [linksIn]
        split
        case h_1 link rest hlink =>
          have hlength := length_lt_of_linkAt hlink
          rw [List.length_cons] at hlength
          have hrest : rest.length ≤ fuel' := by omega
          rw [ih (by omega) hrest]
        case h_2 => exact ih (by omega) (by omega)

theorem parseHtmlLinks_of_linkAt {s rest : Text} {link : Link}
    (h : linkAt s = some (link, rest)) : parseHtmlLinks s = link :: parseHtmlLinks rest := by
  have hlength := length_lt_of_linkAt h
  cases s with
  | nil => cases h
  | cons c s =>
    rw [List.length_cons] at hlength
    rw [parseHtmlLinks, List.length_cons, linksIn, h]
    exact congrArg (link :: ·) (linksIn_eq (by omega) le_rfl)

theorem parseHtmlLinks_cons {c : Char} {s : Text} (h : linkAt (c :: s) = none) :
    parseHtmlLinks (c :: s) = parseHtmlLinks s := by
  rw [parseHtmlLinks, List.length_cons, linksIn, h]
  rfl

theorem hasOwnHref_of_mem_linksIn {fuel : ℕ} {s : Text} {link : Link}
    (h : link ∈ linksIn fuel s) : link.HasOwnHref := by
  induction fuel generalizing s with
  | zero => cases h
  | succ fuel ih =>
    cases s with
    | nil => cases h
    | cons c s =>
      simp only [linksIn] at h
      split at h
      case h_1 found rest hfound =>
        obtain ⟨word, c, tag, -, -, hattrs⟩ := exists_of_linkAt_eq_some hfound
        rcases List.mem_cons.mp h with rfl | h
        · exact hasOwnHref_of_attrsOn hattrs
        · exact ih h
      case h_2 => exact ih h

/-! ### Text without links -/

/-- In the text no `<` comes before an `a` or at the end. -/
def beginsNoLink : Text → Bool
  | [] => true
  | c :: s => (c ≠ '<' || s.head?.any (·.toLower ≠ 'a')) && beginsNoLink s

theorem beginsNoLink_of_not_mem {s : Text} (h : '<' ∉ s) : beginsNoLink s = true := by
  induction s with
  | nil => rfl
  | cons c s ih =>
    rw [List.mem_cons, not_or] at h
    simp [beginsNoLink, ih h.2, Ne.symm h.1]

theorem beginsNoLink_append {s t : Text} (hs : beginsNoLink s = true)
    (ht : beginsNoLink t = true) : beginsNoLink (s ++ t) = true := by
  induction s with
  | nil => exact ht
  | cons c s ih =>
    simp only [beginsNoLink, Bool.and_eq_true] at hs
    rw [List.cons_append, beginsNoLink, ih hs.2, Bool.and_true]
    cases s with
    | nil =>
      have hc : c ≠ '<' := by simpa using hs.1
      simp [hc]
    | cons d s => exact hs.1

theorem linkAt_eq_none {c : Char} {s : Text} (h : beginsNoLink (c :: s) = true) (t : Text) :
    linkAt (c :: (s ++ t)) = none := by
  rw [Option.eq_none_iff_forall_ne_some]
  rintro ⟨link, rest⟩ hlink
  obtain ⟨word, d, tag, hsplit, hword, -⟩ := exists_of_linkAt_eq_some hlink
  have hlength : word.length = 2 := by simpa using congrArg List.length hword
  obtain ⟨lt, a, rfl⟩ := List.length_eq_two.mp hlength
  have hchars : [lt, a].map Char.toLower = ['<', 'a'] := hword
  simp only [List.map_cons, List.map_nil, List.cons.injEq, and_true] at hchars
  obtain ⟨rfl, hrest⟩ := List.cons.inj hsplit
  obtain rfl := eq_of_toLower_eq (by decide) hchars.1
  cases s with
  | nil => simp [beginsNoLink] at h
  | cons e s =>
    obtain ⟨rfl, -⟩ := List.cons.inj hrest
    simp [beginsNoLink, hchars.2] at h

theorem parseHtmlLinks_append {s : Text} (h : beginsNoLink s = true) (t : Text) :
    parseHtmlLinks (s ++ t) = parseHtmlLinks t := by
  induction s with
  | nil => rfl
  | cons c s ih =>
    rw [List.cons_append, parseHtmlLinks_cons (linkAt_eq_none h t)]
    exact ih (Bool.and_eq_true_iff.mp h).2

theorem not_mem_replaceChar {c d : Char} {replacement s : Text} (hreplacement : d ∉ replacement)
    (h : d = c ∨ d ∉ s) : d ∉ replaceChar c replacement s := by
  intro hmem
  obtain ⟨e, he, hd⟩ := List.mem_flatMap.mp hmem
  split at hd
  case isTrue => exact hreplacement hd
  case isFalse hne =>
    obtain rfl := List.mem_singleton.mp hd
    rcases h with rfl | h
    · exact hne rfl
    · exact h he

/-- The name of the package opens no tag. -/
theorem lt_not_mem_escapeHtml (s : Text) : '<' ∉ escapeHtml s :=
  not_mem_replaceChar (by decide) <| Or.inr <| not_mem_replaceChar (by decide) <| Or.inr <|
    not_mem_replaceChar (by decide) (Or.inl rfl)

/-! ### Pages -/

/-- A page before its links. -/
def pageStart (packageName : Text) : Text :=
  "<!DOCTYPE html>\n<html><head><title>Links for ".toList ++ escapeHtml packageName ++
    "</title></head>\n<body>\n<h1>Links for ".toList ++ escapeHtml packageName ++
    "</h1>\n".toList

/-- The links of a page, and what follows them. -/
def pageLinks (links : List Link) : Text :=
  (links.flatMap fun link =>
    "<a ".toList ++ link.fullAttrs ++ ">".toList ++ link.text ++ "</a>\n".toList) ++
    "</body>\n</html>\n".toList

theorem renderHtml_eq (packageName : Text) (links : List Link) :
    renderHtml packageName links = pageStart packageName ++ pageLinks links :=
  List.append_assoc _ _ _

theorem beginsNoLink_pageStart (packageName : Text) :
    beginsNoLink (pageStart packageName) = true := by
  have hname := beginsNoLink_of_not_mem (lt_not_mem_escapeHtml packageName)
  exact beginsNoLink_append (beginsNoLink_append (beginsNoLink_append (beginsNoLink_append
    (by decide) hname) (by decide)) hname) (by decide)

theorem pageLinks_cons (link : Link) (links : List Link) : pageLinks (link :: links) =
    '<' :: 'a' :: ' ' :: (link.body ++ (endTag ++ '\n' :: pageLinks links)) := by
  have hopen : "<a ".toList = ['<', 'a', ' '] := by decide
  have hgt : ">".toList = ['>'] := by decide
  have hend : "</a>\n".toList = endTag ++ ['\n'] := by decide
  rw [pageLinks, pageLinks, List.flatMap_cons, hopen, hgt, hend, Link.body]
  simp

theorem parseHtmlLinks_tag {s rest : Text} {link : Link} (h : attrsOn s = some (link, rest)) :
    parseHtmlLinks ('<' :: 'a' :: ' ' :: s) = link :: parseHtmlLinks rest := by
  have hlink : linkAt ('<' :: 'a' :: ' ' :: s) = attrsOn s := rfl
  exact parseHtmlLinks_of_linkAt (hlink.trans h)

/-- The first tag after a link on a page is no end tag of a link. -/
theorem not_beginsWithEndTag_pageLinks (links : List Link) :
    ¬ BeginsWithEndTag ('\n' :: pageLinks links) := by
  rintro ⟨text, close, rest, htext, hclose, h⟩
  obtain ⟨letter, rfl, -⟩ := hclose.exists_endTag
  have hnewline : '<' ∉ ['\n'] := by decide
  cases links with
  | nil =>
    have hend : pageLinks [] = '<' :: '/' :: 'b' :: 'o' :: "dy>\n</html>\n".toList := by decide
    rw [hend] at h
    have hrest := (append_cons_inj (a := ['\n']) h hnewline htext).2
    simp at hrest
  | cons link links =>
    rw [pageLinks_cons] at h
    have hrest := (append_cons_inj (a := ['\n']) h hnewline htext).2
    simp at hrest

/-! ### Links that swallow the next -/

theorem closesHref_append_iff {s t : Text} (h : '"' ∉ s) : ClosesHref (s ++ t) ↔ ClosesHref t := by
  constructor
  · rintro ⟨value, tail, text, close, rest, hvalue, htail, htext, hclose, hsplit⟩
    obtain ⟨z, rfl, hz⟩ := exists_eq_of_append_cons hsplit.symm h
    exact ⟨z, tail, text, close, rest, fun hmem => hvalue (by simp [hmem]), htail, htext, hclose,
      hz⟩
  · rintro ⟨value, tail, text, close, rest, hvalue, htail, htext, hclose, rfl⟩
    exact ⟨s ++ value, tail, text, close, rest, by simp [h, hvalue], htail, htext, hclose, by simp⟩

/-- A link closes an `href` by itself if it does with what follows it. -/
theorem closesHref_body_append_iff {link : Link} (h : '"' ∈ link.fullAttrs) (s : Text) :
    ClosesHref (link.body ++ (endTag ++ s)) ↔ ClosesHref (link.body ++ endTag) := by
  constructor
  · rintro ⟨value, tail, text, close, rest, hvalue, htail, htext, hclose, hsplit⟩
    have hsplit' : link.body ++ (endTag ++ s) =
        (value ++ '"' :: (tail ++ '>' :: text)) ++ (close ++ rest) := by simpa using hsplit
    rcases endTag_cases spells_endTag hclose hsplit' with ⟨hbody, -⟩ | ⟨y, hbody, -⟩ | ⟨y, hbody, -⟩
    · exact ⟨value, tail, text, endTag, [], hvalue, htail, htext, spells_endTag, by simp [hbody]⟩
    · exact ⟨value, tail, text, close, y ++ endTag, hvalue, htail, htext, hclose, by simp [hbody]⟩
    · rw [Link.body, List.append_assoc, List.cons_append] at hbody
      exact absurd h (quote_not_mem_of_overrun hbody hvalue htail htext spells_endTag)
  · rintro ⟨value, tail, text, close, rest, hvalue, htail, htext, hclose, hsplit⟩
    refine ⟨value, tail, text, close, rest ++ s, hvalue, htail, htext, hclose, ?_⟩
    rw [← List.append_assoc, hsplit]
    simp

/-- A link leaves an `href` open, and the next link ends its value and its tag. -/
def Link.Swallows (link next : Link) : Prop :=
  link.LeavesHrefOpen ∧ ClosesHref (next.body ++ endTag)

/-- A link has the `href` in its attributes, maybe before others. -/
def Link.HasHref (link : Link) : Prop :=
  ∃ (before : Text) (a : Anchor), '>' ∉ before ∧ link = a.link before

theorem Link.HasOwnHref.hasHref {link : Link} (h : link.HasOwnHref) : link.HasHref := by
  obtain ⟨before, a, rfl, hbefore, -⟩ := h
  exact ⟨before, a, hbefore, rfl⟩

theorem Link.HasHref.quote_mem {link : Link} (h : link.HasHref) : '"' ∈ link.fullAttrs := by
  obtain ⟨before, a, -, rfl⟩ := h
  simp [Anchor.link, Anchor.attrs]

theorem closesHref_pageLinks_iff {links : List Link} (h : ∀ link ∈ links, link.HasHref) :
    ClosesHref ('\n' :: pageLinks links) ↔
      ∃ next ∈ links.head?, ClosesHref (next.body ++ endTag) := by
  cases links with
  | nil =>
    have hquote : '"' ∉ '\n' :: pageLinks [] := by decide
    constructor
    · rintro ⟨value, tail, text, close, rest, -, -, -, -, hsplit⟩
      rw [hsplit] at hquote
      simp at hquote
    · rintro ⟨next, hnext, -⟩
      cases hnext
  | cons next links =>
    have hquote : '"' ∉ ['\n', '<', 'a', ' '] := by decide
    have hnext := closesHref_body_append_iff (h next List.mem_cons_self).quote_mem
      ('\n' :: pageLinks links)
    rw [← closesHref_append_iff hquote] at hnext
    rw [pageLinks_cons]
    exact hnext.trans (by simp)

/-! ### Links read back from a page -/

theorem exists_attrsOn_eq_some {link : Link} (h : link.HasHref) (s : Text) :
    ∃ found rest, attrsOn (link.body ++ (endTag ++ s)) = some (found, rest) := by
  obtain ⟨before, a, hbefore, rfl⟩ := h
  have hholds : HoldsAnchor (a.link before).body before a :=
    ⟨hbefore, Or.inl (a.body_link before)⟩
  obtain ⟨a', rest', h'⟩ := hholds.exists_hasAnchor spells_endTag s
  obtain ⟨⟨found, rest⟩, hfound⟩ := Option.ne_none_iff_exists'.mp (attrsOn_ne_none h')
  exact ⟨found, rest, hfound⟩

theorem parseHtmlLinks_newline (s : Text) : parseHtmlLinks ('\n' :: s) = parseHtmlLinks s :=
  parseHtmlLinks_append (s := ['\n']) (by decide) s

theorem parseHtmlLinks_pageLinks {links : List Link} (h : ∀ link ∈ links, link.HasOwnHref)
    (hchain : links.IsChain fun link next => ¬ link.Swallows next) :
    parseHtmlLinks (pageLinks links) = links := by
  induction links with
  | nil => decide
  | cons link links ih =>
    rw [List.isChain_cons] at hchain
    have hopen : ¬ (link.LeavesHrefOpen ∧ ClosesHref ('\n' :: pageLinks links)) := by
      rw [closesHref_pageLinks_iff fun l hl => (h l (List.mem_cons_of_mem _ hl)).hasHref]
      rintro ⟨hlink, next, hnext, hcloses⟩
      exact hchain.1 next hnext ⟨hlink, hcloses⟩
    have hread := attrsOn_of_hasOwnHref (h link List.mem_cons_self) spells_endTag
      (not_beginsWithEndTag_pageLinks links) hopen
    rw [pageLinks_cons, parseHtmlLinks_tag hread, parseHtmlLinks_newline,
      ih (fun l hl => h l (List.mem_cons_of_mem _ hl)) hchain.2]

theorem hasOwnHref_of_hrefs_pageLinks {links : List Link} (h : ∀ link ∈ links, link.HasHref)
    (hhrefs : (parseHtmlLinks (pageLinks links)).map Link.href = links.map Link.href) :
    (∀ link ∈ links, link.HasOwnHref) ∧
      links.IsChain fun link next => ¬ link.Swallows next := by
  induction links with
  | nil => exact ⟨by simp, List.isChain_nil⟩
  | cons link links ih =>
    have hlinks := fun l hl => h l (List.mem_cons_of_mem link hl)
    have hlink := h link List.mem_cons_self
    obtain ⟨found, rest, hfound⟩ := exists_attrsOn_eq_some hlink ('\n' :: pageLinks links)
    rw [pageLinks_cons, parseHtmlLinks_tag hfound, List.map_cons, List.map_cons] at hhrefs
    obtain ⟨hhref, hrest⟩ := List.cons.inj hhrefs
    obtain ⟨before, a, hbefore, rfl⟩ := hlink
    obtain ⟨hown, hopen⟩ := hasOwnHref_of_href_eq hbefore spells_endTag
      (not_beginsWithEndTag_pageLinks links) hfound hhref
    rw [attrsOn_of_hasOwnHref hown spells_endTag (not_beginsWithEndTag_pageLinks links) hopen]
      at hfound
    cases hfound
    rw [parseHtmlLinks_newline] at hrest
    obtain ⟨howns, hchain⟩ := ih hlinks hrest
    rw [closesHref_pageLinks_iff hlinks] at hopen
    refine ⟨?_, hchain.cons fun next hnext hswallows => ?_⟩
    · rintro l hl
      rcases List.mem_cons.mp hl with rfl | hl
      · exact hown
      · exact howns l hl
    · exact hopen ⟨hswallows.1, next, hnext, hswallows.2⟩

/-- What a page lists does not depend on the name on it. -/
theorem parseHtmlLinks_renderHtml (packageName : Text) (links : List Link) :
    parseHtmlLinks (renderHtml packageName links) = parseHtmlLinks (pageLinks links) := by
  rw [renderHtml_eq, parseHtmlLinks_append (beginsNoLink_pageStart packageName)]

/-- A page lists the links it is rendered from, or else not even their URLs. -/
theorem hrefs_renderHtml_iff {packageName : Text} {links : List Link}
    (h : ∀ link ∈ links, link.HasHref) :
    (parseHtmlLinks (renderHtml packageName links)).map Link.href = links.map Link.href ↔
      (∀ link ∈ links, link.HasOwnHref) ∧
        links.IsChain fun link next => ¬ link.Swallows next := by
  rw [parseHtmlLinks_renderHtml]
  refine ⟨hasOwnHref_of_hrefs_pageLinks h, fun ⟨hown, hchain⟩ => ?_⟩
  rw [parseHtmlLinks_pageLinks hown hchain]

/-- The links of a text are read back exactly if none swallows the next. -/
theorem parseHtmlLinks_renderHtml_eq_iff (packageName body : Text) :
    parseHtmlLinks (renderHtml packageName (parseHtmlLinks body)) = parseHtmlLinks body ↔
      (parseHtmlLinks body).IsChain fun link next => ¬ link.Swallows next := by
  have hown : ∀ link ∈ parseHtmlLinks body, link.HasOwnHref := fun link =>
    hasOwnHref_of_mem_linksIn
  constructor
  · intro h
    exact ((hrefs_renderHtml_iff fun link hlink => (hown link hlink).hasHref).mp
      (congrArg (List.map Link.href) h)).2
  · intro hchain
    rw [parseHtmlLinks_renderHtml, parseHtmlLinks_pageLinks hown hchain]

end MergeIndexes
