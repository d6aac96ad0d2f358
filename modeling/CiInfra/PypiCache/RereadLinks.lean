import CiInfra.PypiCache.PageLinks

/-!
# How a link on a page is read back

A link is written out with the attributes it was read with. It is read back unless its tag has an
`href` that no quote ends, and the link after it has the quote.
-/

namespace MergeIndexes

open Separators

/-! ### End tags -/

def endTag : Text := "</a>".toList

theorem spells_endTag : Spells "</a>".toList endTag := by decide

/-- End tags do not overlap. -/
theorem eq_nil_or_exists_of_endTag {close r z t : Text} (hclose : Spells "</a>".toList close)
    (h : close ++ r = z ++ '<' :: t) :
    z = [] ∨ ∃ y, z = close ++ y ∧ r = y ++ '<' :: t := by
  obtain ⟨a, rfl, ha, -⟩ := hclose.exists_endTag
  rcases z with - | ⟨_, - | ⟨_, - | ⟨_, - | ⟨_, z⟩⟩⟩⟩ <;>
    simp only [List.nil_append, List.cons_append, List.cons.injEq] at h
  · exact Or.inl rfl
  · exact absurd h.2.1 (by decide)
  · exact absurd h.2.2.1 ha
  · exact absurd h.2.2.2.1 (by decide)
  · obtain ⟨rfl, rfl, rfl, rfl, hr⟩ := h
    exact Or.inr ⟨z, rfl, hr⟩

/-- Where one text ends at an end tag, another does there, before or after. -/
theorem endTag_cases {close close' u x r r' : Text} (hclose : Spells "</a>".toList close)
    (hclose' : Spells "</a>".toList close') (h : u ++ (close ++ r) = x ++ (close' ++ r')) :
    u = x ∧ r' = r ∨ (∃ y, u = x ++ (close' ++ y) ∧ r' = y ++ (close ++ r)) ∨
      ∃ y, x = u ++ (close ++ y) ∧ r = y ++ (close' ++ r') := by
  have hbegins {close : Text} (h : Spells "</a>".toList close) : ∃ s, close = '<' :: s := by
    obtain ⟨a, rfl, -⟩ := h.exists_endTag
    exact ⟨_, rfl⟩
  obtain ⟨s, hs⟩ := hbegins hclose
  obtain ⟨s', hs'⟩ := hbegins hclose'
  have hlength : close.length = close'.length := by
    rw [← List.length_map Char.toLower, hclose, ← hclose', List.length_map]
  rcases List.append_eq_append_iff.mp h with ⟨z, rfl, hz⟩ | ⟨z, rfl, hz⟩
  · rw [hs', List.cons_append] at hz
    rcases eq_nil_or_exists_of_endTag hclose hz with rfl | ⟨y, rfl, hy⟩
    · rw [← List.cons_append, ← hs', List.nil_append] at hz
      exact Or.inl ⟨(List.append_nil u).symm, (List.append_inj hz hlength).2.symm⟩
    · refine Or.inr (Or.inr ⟨y, rfl, ?_⟩)
      rw [hy, hs', List.cons_append]
  · rw [hs, List.cons_append] at hz
    rcases eq_nil_or_exists_of_endTag hclose' hz with rfl | ⟨y, rfl, hy⟩
    · rw [← List.cons_append, ← hs, List.nil_append] at hz
      exact Or.inl ⟨List.append_nil x, (List.append_inj hz hlength.symm).2⟩
    · refine Or.inr (Or.inl ⟨y, rfl, ?_⟩)
      rw [hy, hs, List.cons_append]

/-! ### A link alone -/

/-- The link in its page, without its end tag. -/
def Link.body (link : Link) : Text := link.fullAttrs ++ '>' :: link.text

theorem Anchor.body_link (a : Anchor) (before : Text) :
    (a.link before).body = before ++ a.body := by
  simp [Link.body, Anchor.link, Anchor.body]

/-- A text has a link from an `href` on, if an end tag follows the text. -/
def HoldsAnchor (s before : Text) (a : Anchor) : Prop :=
  '>' ∉ before ∧ (s = before ++ a.body ∨ ∃ y, s = before ++ (a.body ++ (a.close ++ y)))

/-- The last `href` of a link is its own. -/
def Link.HasOwnHref (link : Link) : Prop :=
  ∃ (before : Text) (a : Anchor), link = a.link before ∧ '>' ∉ before ∧
    ∀ before' a', HoldsAnchor link.body before' a' → before'.length ≤ before.length

theorem HoldsAnchor.exists_hasAnchor {s before close : Text} {a : Anchor}
    (h : HoldsAnchor s before a) (hclose : Spells "</a>".toList close) (rest : Text) :
    ∃ a' rest', HasAnchor (s ++ (close ++ rest)) before a' rest' := by
  obtain ⟨hbefore, rfl | ⟨y, rfl⟩⟩ := h
  · exact ⟨{ a with close, close_spells := hclose }, rest, hbefore, by simp [Anchor.body,
      Anchor.attrs]⟩
  · exact ⟨a, y ++ (close ++ rest), hbefore, by simp⟩

/-- Every link that is read has its own `href` last. -/
theorem hasOwnHref_of_attrsOn {s rest : Text} {link : Link}
    (h : attrsOn s = some (link, rest)) : link.HasOwnHref := by
  obtain ⟨before, a, ⟨⟨hbefore, rfl⟩, hlast⟩, rfl⟩ := attrsOn_eq_some_iff.mp h
  refine ⟨before, a, rfl, hbefore, fun before' a' h' => ?_⟩
  obtain ⟨a'', rest', h''⟩ := h'.exists_hasAnchor a.close_spells rest
  rw [a.body_link, List.append_assoc] at h''
  exact hlast _ _ _ h''

/-! ### A link with text after it -/

/-- The text has a quote, a tag that ends after it and an end tag with no other tag before. -/
def ClosesHref (s : Text) : Prop :=
  ∃ value tail text close rest, '"' ∉ value ∧ '>' ∉ tail ∧ '<' ∉ text ∧
    Spells "</a>".toList close ∧ s = value ++ '"' :: (tail ++ '>' :: (text ++ (close ++ rest)))

/-- The first tag in the text is an end tag of a link. -/
def BeginsWithEndTag (s : Text) : Prop :=
  ∃ text close rest, '<' ∉ text ∧ Spells "</a>".toList close ∧ s = text ++ (close ++ rest)

/-- The tag has an `href` that no quote ends, and neither does one in the link's text. -/
def Link.LeavesHrefOpen (link : Link) : Prop :=
  '"' ∉ link.text ∧ ∃ before attr value, link.fullAttrs = before ++ (attr ++ value) ∧
    '>' ∉ before ∧ Spells "href=\"".toList attr ∧ '"' ∉ value

theorem gt_not_mem_of_spells_href {attr : Text} (h : Spells "href=\"".toList attr) : '>' ∉ attr :=
  h.not_mem (by decide)

theorem lt_not_mem_of_gt {tail text b c : Text} (h : tail ++ '>' :: text = b ++ '>' :: c)
    (htail : '>' ∉ tail) (htext : '<' ∉ text) : '<' ∉ c := by
  rcases eq_or_exists_of_append_cons h.symm htail with ⟨-, rfl⟩ | ⟨b', -, rfl⟩
  · exact htext
  · exact fun hc => htext (by simp [hc])

theorem lt_mem_append_endTag {close x y : Text} (h : Spells "</a>".toList close) :
    '<' ∈ x ++ (close ++ y) := by
  obtain ⟨a, rfl, -⟩ := h.exists_endTag
  simp

/-- A value with a quote in the link's tag is read no further than the link. -/
theorem quote_not_mem_of_overrun {value tail text b x y close : Text}
    (h : value ++ '"' :: (tail ++ '>' :: text) = b ++ '>' :: (x ++ (close ++ y)))
    (hvalue : '"' ∉ value) (htail : '>' ∉ tail) (htext : '<' ∉ text)
    (hclose : Spells "</a>".toList close) : '"' ∉ b := by
  intro hb
  obtain ⟨b, b', rfl, hquote⟩ := List.eq_append_cons_of_mem hb
  rw [List.append_assoc, List.cons_append] at h
  obtain ⟨-, hrest⟩ := append_cons_inj h hvalue hquote
  exact lt_not_mem_of_gt hrest htail htext (lt_mem_append_endTag hclose)

theorem HasAnchor.holds_or_exists {s before close rest rest' : Text} {a : Anchor}
    (h : HasAnchor (s ++ (close ++ rest)) before a rest') (hclose : Spells "</a>".toList close) :
    HoldsAnchor s before a ∨
      ∃ y, before ++ a.body = s ++ (close ++ y) ∧ rest = y ++ (a.close ++ rest') := by
  obtain ⟨hbefore, h⟩ := h
  rw [← List.append_assoc before] at h
  rcases endTag_cases hclose a.close_spells h with ⟨rfl, -⟩ | ⟨y, rfl, -⟩ | h
  · exact Or.inl ⟨hbefore, Or.inl rfl⟩
  · exact Or.inl ⟨hbefore, Or.inr ⟨y, List.append_assoc _ _ _⟩⟩
  · exact Or.inr h

/-- Where a link is left from its `href` on. -/
theorem exists_value_of_body_eq {before x y : Text} {a : Anchor} {link : Link}
    (h : before ++ (a.body ++ x) = link.body ++ y) (hbefore : '>' ∉ before) :
    ∃ value, link.fullAttrs = before ++ (a.attr ++ value) ∧
      a.href ++ '"' :: (a.tail ++ '>' :: (a.text ++ x)) = value ++ '>' :: (link.text ++ y) := by
  have hsplit : link.fullAttrs ++ '>' :: (link.text ++ y) =
      (before ++ a.attr) ++ (a.href ++ '"' :: (a.tail ++ '>' :: (a.text ++ x))) := by
    simpa [Link.body, Anchor.body, Anchor.attrs] using h.symm
  obtain ⟨value, hvalue, h⟩ := exists_eq_of_append_cons hsplit fun hgt => by
    simp [hbefore, gt_not_mem_of_spells_href a.attr_spells] at hgt
  exact ⟨value, by rw [hvalue, List.append_assoc], h⟩

/-- A value that does not end in the tag goes on after the tag. -/
theorem exists_value_append_gt {href value x y : Text}
    (h : href ++ '"' :: x = value ++ '>' :: y) (hvalue : '"' ∉ value) :
    ∃ z, href = value ++ '>' :: z ∧ y = z ++ '"' :: x := by
  obtain ⟨z, hhref, hz⟩ := exists_eq_of_append_cons h hvalue
  cases z with
  | nil => exact absurd (List.cons.inj hz).1 (by decide)
  | cons c z =>
    obtain ⟨rfl, hy⟩ := List.cons.inj hz
    exact ⟨z, hhref, hy⟩

/-- A value that ends in the link's text is read with what follows the end tag. -/
theorem eq_of_quote_mem_text {shown value tail text y close : Text}
    (h : shown ++ (close ++ y) = value ++ '"' :: (tail ++ '>' :: text)) (hshown : '"' ∈ shown)
    (hvalue : '"' ∉ value) (htail : '>' ∉ tail) (htext : '<' ∉ text)
    (hclose : Spells "</a>".toList close) : y = text := by
  obtain ⟨u, v, rfl, hquote⟩ := List.eq_append_cons_of_mem hshown
  rw [List.append_assoc, List.cons_append] at h
  obtain ⟨-, hrest⟩ := append_cons_inj h hquote hvalue
  have hgt : '>' ∉ v := by
    intro hgt
    obtain ⟨w, w', rfl, -⟩ := List.eq_append_cons_of_mem hgt
    rw [List.append_assoc, List.cons_append] at hrest
    exact lt_not_mem_of_gt hrest.symm htail htext (lt_mem_append_endTag hclose)
  obtain ⟨letter, rfl, -, hletter⟩ := hclose.exists_endTag
  have hsplit : (v ++ ['<', '/', letter]) ++ '>' :: y = tail ++ '>' :: text := by simpa using hrest
  exact (append_cons_inj hsplit (by simp [hgt, hletter.symm]) htail).2

/-- An `href` whose link goes beyond the link that it is in. -/
theorem overrun {before close y rest rest' : Text} {a : Anchor} {link : Link}
    (h : before ++ a.body = link.body ++ (close ++ y)) (hrest : rest = y ++ (a.close ++ rest'))
    (hbefore : '>' ∉ before) (hclose : Spells "</a>".toList close) :
    (∃ value, link.fullAttrs = before ++ (a.attr ++ value) ∧ '"' ∉ value) ∧ '>' ∈ a.href ∧
      (BeginsWithEndTag rest ∨ '"' ∉ link.text ∧ ClosesHref rest) := by
  obtain ⟨value, hattrs, hsplit⟩ := exists_value_of_body_eq (x := []) (by simpa using h) hbefore
  rw [List.append_nil] at hsplit
  have hquote := quote_not_mem_of_overrun hsplit a.quote_not_mem_href a.gt_not_mem_tail
    a.lt_not_mem_text hclose
  obtain ⟨z, hhref, hshown⟩ := exists_value_append_gt hsplit hquote
  have hz : '"' ∉ z := fun h => a.quote_not_mem_href (by simp [hhref, h])
  refine ⟨⟨value, hattrs, hquote⟩, by simp [hhref], ?_⟩
  by_cases htext : '"' ∈ link.text
  · left
    obtain rfl := eq_of_quote_mem_text hshown htext hz a.gt_not_mem_tail a.lt_not_mem_text hclose
    exact ⟨_, _, rest', a.lt_not_mem_text, a.close_spells, hrest⟩
  · right
    have hclose' : '"' ∉ close := hclose.not_mem (by decide)
    rw [← List.append_assoc] at hshown
    obtain ⟨v, rfl, rfl⟩ := exists_eq_of_append_cons hshown.symm (by simp [htext, hclose'])
    refine ⟨htext, v, a.tail, a.text, a.close, rest', fun h => hz (by simp [h]),
      a.gt_not_mem_tail, a.lt_not_mem_text, a.close_spells, ?_⟩
    simpa using hrest

/-! ### Reading a link back -/

theorem count_quote_of_spells_href {attr : Text} (h : Spells "href=\"".toList attr) :
    attr.count '"' = 1 := by
  obtain ⟨name, rfl, hname⟩ := h.exists_name
  have hquote : '"' ∉ name := hname.not_mem (by decide)
  rw [List.count_append, List.count_eq_zero.mpr hquote]
  rfl

/-- No quote follows an open `href`, so that none follows a later one. -/
theorem length_lt_of_quote_not_mem {before attr value before' attr' value' : Text}
    (h : before ++ (attr ++ value) = before' ++ (attr' ++ value')) (hvalue : '"' ∉ value)
    (hvalue' : '"' ∈ value') (hattr : Spells "href=\"".toList attr)
    (hattr' : Spells "href=\"".toList attr') : before'.length < before.length := by
  by_contra hlength
  have hpre : before <+: before' := List.prefix_of_prefix_length_le
    (List.prefix_append before _) (h ▸ List.prefix_append before' _) (not_lt.mp hlength)
  obtain ⟨z, rfl⟩ := hpre
  rw [List.append_assoc] at h
  have hcount := congrArg (List.count '"') (List.append_cancel_left h)
  simp only [List.count_append, count_quote_of_spells_href hattr,
    count_quote_of_spells_href hattr', List.count_eq_zero.mpr hvalue] at hcount
  have hpos := List.count_pos_iff.mpr hvalue'
  omega

/-- The value of a link's `href` is in its tag if an `href` after it is open. -/
theorem gt_not_mem_href {before before' attr' value : Text} {a : Anchor}
    (h : before ++ a.attrs = before' ++ (attr' ++ value)) (hbefore' : '>' ∉ before')
    (hattr' : Spells "href=\"".toList attr') (hvalue : '"' ∉ value) : '>' ∉ a.href := by
  have hsplit : (before ++ (a.attr ++ a.href)) ++ '"' :: a.tail = (before' ++ attr') ++ value := by
    simpa [Anchor.attrs] using h
  rcases List.append_eq_append_iff.mp hsplit with ⟨z, hz, -⟩ | ⟨z, -, rfl⟩
  · intro hgt
    have hmem : '>' ∈ before' ++ attr' := by simp [hz, hgt]
    simp [hbefore', gt_not_mem_of_spells_href hattr'] at hmem
  · simp at hvalue

/-- A quote that is not before the link's own `href` is not before the end of its value. -/
theorem gt_not_mem_of_length_le {before before' v : Text} {a a' : Anchor}
    (h : before ++ a.attrs = before' ++ (a'.attr ++ (a'.href ++ '"' :: v)))
    (hlength : before.length ≤ before'.length) (hhref : a'.href = a.href) : '>' ∉ v := by
  intro hgt
  have hattr : a.attr.length = a'.attr.length := by
    rw [← List.length_map Char.toLower, a.attr_spells, ← a'.attr_spells, List.length_map]
  have hsplit : (before ++ a.attr) ++ (a.href ++ '"' :: a.tail) =
      (before' ++ (a'.attr ++ a'.href)) ++ '"' :: v := by
    simpa [Anchor.attrs] using h
  rcases List.append_eq_append_iff.mp hsplit with ⟨z, -, hz⟩ | ⟨z, hz, hquote⟩
  · rcases eq_or_exists_of_append_cons hz.symm a.quote_not_mem_href with ⟨-, rfl⟩ | ⟨z', -, hz'⟩
    · exact a.gt_not_mem_tail hgt
    · exact a.gt_not_mem_tail (by simp [← hz', hgt])
  · have hlengths := congrArg List.length hz
    simp only [List.length_append] at hlengths
    obtain rfl : z = [] := List.length_eq_zero_iff.mp (by omega)
    have hnil : a.href = [] := hhref ▸ List.length_eq_zero_iff.mp (by omega)
    rw [hnil] at hquote
    exact a.gt_not_mem_tail ((List.cons.inj hquote).2 ▸ hgt)

/-- A link is read in full at an `href` of the same value that is not before its own. -/
theorem link_eq_of_holdsAnchor {before before' : Text} {a a' : Anchor}
    (h : HoldsAnchor (a.link before).body before' a') (hlength : before.length ≤ before'.length)
    (hhref : a'.href = a.href) : a'.link before' = a.link before := by
  obtain ⟨hbefore', h⟩ := h
  obtain ⟨x, hbody, hx⟩ : ∃ x, before' ++ (a'.body ++ x) = (a.link before).body ++ [] ∧
      (x = [] ∨ '<' ∈ x) := by
    rcases h with h | ⟨y, h⟩
    · exact ⟨[], by simp [h], Or.inl rfl⟩
    · refine ⟨a'.close ++ y, by simp [h], Or.inr ?_⟩
      simpa using lt_mem_append_endTag (x := []) (y := y) a'.close_spells
  obtain ⟨value, hattrs, hsplit⟩ := exists_value_of_body_eq hbody hbefore'
  by_cases hquote : '"' ∈ value
  · obtain ⟨u, v, rfl, hu⟩ := List.eq_append_cons_of_mem hquote
    rw [List.append_assoc, List.cons_append] at hsplit
    obtain ⟨rfl, hrest⟩ := append_cons_inj hsplit a'.quote_not_mem_href hu
    have hv := gt_not_mem_of_length_le hattrs hlength hhref
    obtain ⟨rfl, htext⟩ := append_cons_inj hrest a'.gt_not_mem_tail hv
    have htext' : a'.text ++ x = a.text := by simpa [Anchor.link] using htext
    obtain rfl := hx.resolve_right fun hlt => a.lt_not_mem_text (by simp [← htext', hlt])
    rw [Anchor.link, Anchor.link, Link.mk.injEq]
    exact ⟨hattrs.symm, hhref, by simpa using htext'⟩
  · obtain ⟨z, hz, -⟩ := exists_value_append_gt hsplit hquote
    have hgt := gt_not_mem_href hattrs hbefore' a'.attr_spells hquote
    exact absurd (hhref ▸ hz ▸ by simp) hgt

section Reread

variable {link : Link} {close rest : Text}

/-- A link is read back if it has its own `href` last and the next link does not close another. -/
theorem attrsOn_of_hasOwnHref (hown : link.HasOwnHref) (hclose : Spells "</a>".toList close)
    (hrest : ¬ BeginsWithEndTag rest) (hopen : ¬ (link.LeavesHrefOpen ∧ ClosesHref rest)) :
    attrsOn (link.body ++ (close ++ rest)) = some (link, rest) := by
  obtain ⟨before, a, rfl, hbefore, hlast⟩ := hown
  refine attrsOn_eq_some_iff.mpr ⟨before, { a with close, close_spells := hclose },
    ⟨⟨hbefore, ?_⟩, fun before' a' rest' h' => ?_⟩, rfl⟩
  · rw [a.body_link, List.append_assoc]
    rfl
  · rcases h'.holds_or_exists hclose with hholds | ⟨y, hbody, hy⟩
    · exact hlast _ _ hholds
    · obtain ⟨⟨value, hattrs, hquote⟩, -, hend | ⟨htext, hcloses⟩⟩ := overrun hbody hy h'.1 hclose
      · exact absurd hend hrest
      · exact absurd
          ⟨⟨htext, before', a'.attr, value, hattrs, h'.1, a'.attr_spells, hquote⟩, hcloses⟩ hopen

/-- A link whose URL is read back has its own `href` last, and the next closes no other. -/
theorem hasOwnHref_of_href_eq {before rest' : Text} {a : Anchor} {found : Link}
    (hbefore : '>' ∉ before) (hclose : Spells "</a>".toList close) (hrest : ¬ BeginsWithEndTag rest)
    (h : attrsOn ((a.link before).body ++ (close ++ rest)) = some (found, rest'))
    (hhref : found.href = a.href) :
    (a.link before).HasOwnHref ∧ ¬ ((a.link before).LeavesHrefOpen ∧ ClosesHref rest) := by
  obtain ⟨before', a', ⟨hhas, hlast⟩, rfl⟩ := attrsOn_eq_some_iff.mp h
  have hholds : HoldsAnchor (a.link before).body before' a' := by
    refine (hhas.holds_or_exists hclose).resolve_right ?_
    rintro ⟨y, hbody, hy⟩
    obtain ⟨⟨value, hattrs, hquote⟩, hgt, -⟩ := overrun hbody hy hhas.1 hclose
    exact gt_not_mem_href hattrs hhas.1 a'.attr_spells hquote (hhref ▸ hgt)
  have hlast' : ∀ b c, HoldsAnchor (a.link before).body b c → b.length ≤ before'.length := by
    intro b c hbc
    obtain ⟨c', rest'', hc⟩ := hbc.exists_hasAnchor hclose rest
    exact hlast _ _ _ hc
  have hlink := link_eq_of_holdsAnchor hholds (hlast' before a ⟨hbefore, Or.inl (a.body_link _)⟩)
    hhref
  refine ⟨⟨before', a', hlink.symm, hhas.1, hlast'⟩, ?_⟩
  rintro ⟨⟨htext, b, attr, value, hattrs, hb, hattr, hvalue⟩, hcloses⟩
  obtain ⟨value', tail, text, close', rest'', hvalue', htail, htext', hclose', rfl⟩ := hcloses
  -- The value of the open `href` ends at the quote in the next link.
  have hclose'' : '"' ∉ close := hclose.not_mem (by decide)
  have hopen : HasAnchor ((a.link before).body ++ (close ++
      (value' ++ '"' :: (tail ++ '>' :: (text ++ (close' ++ rest'')))))) b
      ⟨attr, value ++ '>' :: (a.text ++ (close ++ value')), tail, text, close', hattr,
        fun h => by
          simp only [List.mem_append, List.mem_cons] at h
          rcases h with h | h | h | h | h
          · exact hvalue h
          · exact absurd h (by decide)
          · exact htext h
          · exact hclose'' h
          · exact hvalue' h,
        htail, htext', hclose'⟩ rest'' := by
    refine ⟨hb, ?_⟩
    rw [Link.body, hattrs]
    simp [Anchor.body, Anchor.attrs, Anchor.link]
  have hle := hlast _ _ _ hopen
  have hsplit : b ++ (attr ++ value) = before' ++ (a'.attr ++ (a'.href ++ '"' :: a'.tail)) :=
    hattrs.symm.trans (congrArg Link.fullAttrs hlink).symm
  have hlt := length_lt_of_quote_not_mem hsplit hvalue (by simp) hattr a'.attr_spells
  omega

end Reread

end MergeIndexes
