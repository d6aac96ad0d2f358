import CiInfra.Lib.Removal
import CiInfra.PypiCache.MergedAnswers
import CiInfra.PypiCache.RenderedPages

/-!
# What a client reads from a merged page

The upstream links of a merged page should be read with the upstream hosts removed from their URLs.
A link can swallow the next, as on any page that is rendered. Removing a host can also make up
another `href` in the attributes, or leave a host whose letters stood around it.
-/

namespace MergeIndexes

open FirstWins Removal

/-! ### Texts without hosts -/

def pythonHost : Text := "https://files.pythonhosted.org".toList

def pytorchHost : Text := "https://download.pytorch.org".toList

theorem mem_upstreamHosts {host : Text} :
    host ∈ upstreamHosts ↔ host = pythonHost ∨ host = pytorchHost := by
  have hhosts : upstreamHosts = [pythonHost, pytorchHost] := rfl
  simp [hhosts]

/-- No host has a `g` but at its end. -/
theorem apart_upstreamHosts : Apart 'g' (· ∈ upstreamHosts) where
  endsAt := by
    rintro host hhost
    rcases mem_upstreamHosts.mp hhost with rfl | rfl
    · exact ⟨"https://files.pythonhosted.or".toList, by decide +kernel, by decide +kernel⟩
    · exact ⟨"https://download.pytorch.or".toList, by decide +kernel, by decide +kernel⟩
  eq_of_suffix := by
    have hall : ∀ u ∈ upstreamHosts, ∀ v ∈ upstreamHosts, u <:+ v → u = v := by decide +kernel
    intro u v hu hv
    exact hall u hu v hv

theorem strips_without {word : Text} (hword : word ≠ []) {fuel : ℕ} {s : Text}
    (hfuel : s.length ≤ fuel) : Strips word s (without word fuel s) := by
  induction fuel generalizing s with
  | zero =>
    obtain rfl := List.length_eq_zero_iff.mp (Nat.le_zero.mp hfuel)
    exact .nil
  | succ fuel ih =>
    cases s with
    | nil => exact .nil
    | cons c s =>
      rw [List.length_cons] at hfuel
      simp only [without]
      split
      · rename_i hpre
        obtain ⟨rest, hrest⟩ := List.isPrefixOf_iff_prefix.mp hpre
        have hlength := congrArg List.length hrest
        rw [List.length_append, List.length_cons] at hlength
        have hpos := List.length_pos_iff.mpr hword
        rw [← hrest, List.drop_left]
        exact .drop (ih (by omega))
      · rename_i hpre
        exact .keep (mt List.isPrefixOf_iff_prefix.mpr hpre) (ih (by omega))

/-- The hosts are removed one after the other. -/
theorem exists_strips_rewriteAttrs (attrs : Text) :
    ∃ s, Strips pythonHost attrs s ∧ Strips pytorchHost s (rewriteAttrs attrs) :=
  ⟨without pythonHost attrs.length attrs, strips_without (by decide) le_rfl,
    strips_without (by decide) le_rfl⟩

theorem rewriteAttrs_eq {attrs s t : Text} (hs : Strips pythonHost attrs s)
    (ht : Strips pytorchHost s t) : rewriteAttrs attrs = t := by
  obtain ⟨s', hs', ht'⟩ := exists_strips_rewriteAttrs attrs
  obtain rfl := hs.unique (by decide) hs'
  exact ht'.unique (by decide) ht

theorem rewriteAttrs_sublist (attrs : Text) : (rewriteAttrs attrs).Sublist attrs := by
  obtain ⟨s, hs, ht⟩ := exists_strips_rewriteAttrs attrs
  exact ht.sublist.trans hs.sublist

theorem rewriteAttrs_append_quote (s t : Text) :
    rewriteAttrs (s ++ '"' :: t) = rewriteAttrs s ++ '"' :: rewriteAttrs t := by
  obtain ⟨s', hs, hs'⟩ := exists_strips_rewriteAttrs s
  obtain ⟨t', ht, ht'⟩ := exists_strips_rewriteAttrs t
  exact rewriteAttrs_eq (hs.append_cons (by decide) (by decide +kernel) ht)
    (hs'.append_cons (by decide) (by decide +kernel) ht')

theorem rewriteAttrs_append {s u : Text} (hu : 'g' ∉ u) :
    rewriteAttrs (s ++ u) = rewriteAttrs s ++ u := by
  obtain ⟨s', hs, hs'⟩ := exists_strips_rewriteAttrs s
  have hends {host : Text} (h : host = pythonHost ∨ host = pytorchHost) : EndsAt 'g' host :=
    apart_upstreamHosts.endsAt (mem_upstreamHosts.mpr h)
  exact rewriteAttrs_eq ((hends (Or.inl rfl)).strips_append hu hs)
    ((hends (Or.inr rfl)).strips_append hu hs')

/-- A host is left exactly if its letters stand around text that is removed. -/
theorem exists_host_infix_iff (href : Text) :
    (∃ host ∈ upstreamHosts, host <:+: rewriteAttrs href) ↔
      ∃ m, m <:+: href ∧ Spliced pythonHost pytorchHost m := by
  obtain ⟨s, hs, ht⟩ := exists_strips_rewriteAttrs href
  have hpython := mem_upstreamHosts.mpr (Or.inl rfl)
  have hpytorch := mem_upstreamHosts.mpr (Or.inr rfl)
  rw [← apart_upstreamHosts.exists_infix_iff hpython hpytorch (by decide +kernel) hs ht]
  simp only [mem_upstreamHosts]

/-! ### Links without hosts -/

/-- The link without the upstream hosts. -/
def withoutHosts (link : Link) : Link where
  fullAttrs := rewriteAttrs link.fullAttrs
  href := rewriteAttrs link.href
  text := link.text

theorem Link.HasHref.withoutHosts {link : Link} (h : link.HasHref) :
    (MergeIndexes.withoutHosts link).HasHref := by
  obtain ⟨before, a, hbefore, rfl⟩ := h
  have hnot {c : Char} {s : Text} (hc : c ∉ s) : c ∉ rewriteAttrs s := fun hmem =>
    hc ((rewriteAttrs_sublist s).mem hmem)
  refine ⟨rewriteAttrs before, ⟨a.attr, rewriteAttrs a.href, rewriteAttrs a.tail, a.text, a.close,
    a.attr_spells, hnot a.quote_not_mem_href, hnot a.gt_not_mem_tail, a.lt_not_mem_text,
    a.close_spells⟩, hnot hbefore, ?_⟩
  obtain ⟨name, hattr, hname⟩ := a.attr_spells.exists_name
  have hg : 'g' ∉ name := hname.not_mem (by decide)
  have hattrs : before ++ a.attrs = (before ++ name) ++ '"' :: (a.href ++ '"' :: a.tail) := by
    simp [Anchor.attrs, hattr]
  simp only [MergeIndexes.withoutHosts, Anchor.link, Link.mk.injEq, and_true]
  rw [hattrs, rewriteAttrs_append_quote, rewriteAttrs_append hg, rewriteAttrs_append_quote]
  simp [Anchor.attrs, hattr]

/-! ### Merged pages -/

/-- The upstream links that a merged page lists. -/
def newLinks (engine : Engine) (own upstream : List Link) : List Link :=
  joining linkName (takenNames engine linkName own) upstream

/-- The links of a merged page as a client should read them. -/
def clientLinks (engine : Engine) (own upstream : List Link) : List Link :=
  own ++ (newLinks engine own upstream).map withoutHosts

/-- Pages list the links that they are rendered from, under any name, and a merged page has the
upstream URLs without hosts. -/
structure FaithfulPages (engine : Engine) (packageName ownBody upstreamBody : Text) : Prop where
  own : parseHtmlLinks (renderHtml packageName (parseHtmlLinks ownBody)) = parseHtmlLinks ownBody
  upstream : parseHtmlLinks (renderHtml packageName (parseHtmlLinks upstreamBody)) =
    parseHtmlLinks upstreamBody
  anyName : ∀ name links,
    parseHtmlLinks (renderHtml name links) = parseHtmlLinks (renderHtml packageName links)
  merged :
    (parseHtmlLinks (renderHtml packageName
      (mergeHtmlLinks engine (parseHtmlLinks ownBody) (parseHtmlLinks upstreamBody)))).map
        Link.href =
      (clientLinks engine (parseHtmlLinks ownBody) (parseHtmlLinks upstreamBody)).map Link.href
  noHost : ∀ link ∈ newLinks engine (parseHtmlLinks ownBody) (parseHtmlLinks upstreamBody),
    ¬ ∃ host ∈ upstreamHosts, host <:+: (withoutHosts link).href

theorem pageLinks_map_rewriteLink (own new : List Link) :
    pageLinks (own ++ new.map rewriteLink) = pageLinks (own ++ new.map withoutHosts) := by
  simp only [pageLinks, List.flatMap_append, List.flatMap_map]
  rfl

theorem parseHtmlLinks_merged (engine : Engine) (packageName : Text) (own upstream : List Link) :
    parseHtmlLinks (renderHtml packageName (mergeHtmlLinks engine own upstream)) =
      parseHtmlLinks (renderHtml packageName (clientLinks engine own upstream)) := by
  rw [parseHtmlLinks_renderHtml, parseHtmlLinks_renderHtml, mergeHtmlLinks, mergeEntries_eq,
    clientLinks, newLinks, pageLinks_map_rewriteLink]

theorem hasHref_of_mem_clientLinks {engine : Engine} {ownBody upstreamBody : Text} {link : Link}
    (h : link ∈ clientLinks engine (parseHtmlLinks ownBody) (parseHtmlLinks upstreamBody)) :
    link.HasHref := by
  rcases List.mem_append.mp h with h | h
  · exact (hasOwnHref_of_mem_linksIn h).hasHref
  · obtain ⟨upstream, hupstream, rfl⟩ := List.mem_map.mp h
    have hmem := (joining_sublist _ _).mem hupstream
    exact (hasOwnHref_of_mem_linksIn hmem).hasHref.withoutHosts

/-- No link swallows the next. -/
def KeepsApart (links : List Link) : Prop := links.IsChain fun link next => ¬ link.Swallows next

theorem faithfulPages_iff (engine : Engine) (packageName ownBody upstreamBody : Text) :
    FaithfulPages engine packageName ownBody upstreamBody ↔
      KeepsApart (parseHtmlLinks ownBody) ∧ KeepsApart (parseHtmlLinks upstreamBody) ∧
      KeepsApart (clientLinks engine (parseHtmlLinks ownBody) (parseHtmlLinks upstreamBody)) ∧
      ∀ link ∈ newLinks engine (parseHtmlLinks ownBody) (parseHtmlLinks upstreamBody),
        (withoutHosts link).HasOwnHref ∧
          ¬ ∃ m, m <:+: link.href ∧ Spliced pythonHost pytorchHost m := by
  have hmerged := @hrefs_renderHtml_iff packageName
    (clientLinks engine (parseHtmlLinks ownBody) (parseHtmlLinks upstreamBody))
    fun _ => hasHref_of_mem_clientLinks
  rw [← parseHtmlLinks_merged] at hmerged
  constructor
  · rintro ⟨hown, hupstream, -, hhrefs, hhosts⟩
    obtain ⟨howns, hchain⟩ := hmerged.mp hhrefs
    refine ⟨(parseHtmlLinks_renderHtml_eq_iff _ _).mp hown,
      (parseHtmlLinks_renderHtml_eq_iff _ _).mp hupstream, hchain, fun link hlink => ⟨?_, ?_⟩⟩
    · exact howns _ (List.mem_append_right _ (List.mem_map_of_mem hlink))
    · rw [← exists_host_infix_iff]
      exact hhosts link hlink
  · rintro ⟨hown, hupstream, hchain, hnew⟩
    refine ⟨(parseHtmlLinks_renderHtml_eq_iff _ _).mpr hown,
      (parseHtmlLinks_renderHtml_eq_iff _ _).mpr hupstream, fun name links => ?_, ?_, ?_⟩
    · rw [parseHtmlLinks_renderHtml, parseHtmlLinks_renderHtml]
    · refine hmerged.mpr ⟨fun link hlink => ?_, hchain⟩
      rcases List.mem_append.mp hlink with hlink | hlink
      · exact hasOwnHref_of_mem_linksIn hlink
      · obtain ⟨upstream, hmem, rfl⟩ := List.mem_map.mp hlink
        exact (hnew upstream hmem).1
    · intro link hlink
      have hspliced := (hnew link hlink).2
      rw [← exists_host_infix_iff] at hspliced
      exact hspliced

/-- The second link is read as part of an `href` that the first one leaves open. -/
theorem not_faithfulPages_open_href : ¬ FaithfulPages pageEngine "cffi".toList
    "<a href=\"a.whl\" data-x=\"1\" href=\"b>a</a> \"<i> <a href=\"c.whl\">c</a>".toList [] := by
  intro h
  have hown := h.own
  revert hown
  decide +kernel

end MergeIndexes
