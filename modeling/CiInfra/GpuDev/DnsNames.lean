import CiInfra.Lib.Characters
import CiInfra.Lib.Replacing
import CiInfra.GpuDev.DnsRecords
import CiInfra.SshProxy.DomainMappings

/-!
# The names of reservations

A reservation gets the name that its user prefers, made fit for a host name, or a random one. A name
that is in use or reserved is varied by a number; then other random names are tried, and in the end
the time makes the name.
-/

namespace CiInfra.GpuDev.DnsNames

open DnsRecords (RecordType)
open SshProxy (Expiry)

abbrev Name := List Char

/-! ### Random names -/

def adjectives : List String :=
  ["brave", "clever", "swift", "mighty", "gentle", "bright", "calm", "bold", "cheerful", "eager",
    "quick", "wise", "kind", "loyal", "proud", "strong", "happy", "lucky", "smart", "noble",
    "keen", "agile", "sharp", "witty", "fierce", "steady", "quiet", "wild", "free", "rare", "pure",
    "cool", "warm", "fresh", "crisp", "smooth", "solid", "grand", "fine", "neat", "tough", "light",
    "dark", "deep", "high", "fast", "slow", "old", "new", "silent", "stormy", "sunny", "misty",
    "foggy", "snowy", "windy", "cloudy", "golden", "silver", "copper", "bronze", "crystal",
    "diamond", "ruby", "emerald", "scarlet", "crimson", "azure", "violet", "amber", "jade",
    "coral", "ivory", "velvet", "silk", "satin", "leather", "marble", "granite", "steel", "iron",
    "ancient", "modern", "cosmic", "stellar", "lunar", "solar", "arctic", "desert", "mountain",
    "valley", "forest", "ocean", "river", "lake", "meadow", "prairie", "mystic", "magic",
    "electric", "atomic", "cyber", "digital", "quantum", "neural"]

def animals : List String :=
  ["bear", "wolf", "fox", "eagle", "hawk", "lion", "tiger", "panda", "owl", "raven", "deer", "elk",
    "moose", "bison", "otter", "seal", "whale", "dolphin", "shark", "turtle", "penguin", "falcon",
    "sparrow", "robin", "blue", "cardinal", "jay", "crow", "finch", "wren", "cat", "dog", "horse",
    "rabbit", "squirrel", "chipmunk", "beaver", "raccoon", "skunk", "possum", "bat", "mouse",
    "rat", "hamster", "ferret", "mink", "stoat", "weasel", "badger", "wolverine", "leopard",
    "cheetah", "lynx", "bobcat", "cougar", "jaguar", "zebra", "giraffe", "elephant", "rhino",
    "hippo", "buffalo", "antelope", "gazelle", "impala", "kudu", "oryx", "springbok", "kangaroo",
    "koala", "platypus", "echidna", "wallaby", "wombat", "dingo", "tasmanian", "mongoose",
    "meerkat", "lemur", "sloth", "armadillo", "anteater", "capybara", "chinchilla", "hedgehog",
    "porcupine", "pangolin", "aardvark", "okapi", "tapir", "manatee", "dugong", "narwhal",
    "beluga", "orca", "walrus", "seahorse", "starfish", "octopus", "squid", "crab", "lobster",
    "shrimp", "jellyfish", "barracuda", "marlin", "swordfish", "tuna", "salmon", "trout", "bass",
    "pike", "carp", "catfish", "goldfish", "angelfish", "butterfly", "dragonfly", "firefly",
    "beetle", "mantis", "cricket", "grasshopper", "ant", "bee", "wasp", "hornet", "spider",
    "scorpion", "gecko", "iguana", "chameleon"]

/-- A random choice of two words. -/
structure Draw where
  adjective : { word // word ∈ adjectives }
  animal : { word // word ∈ animals }

def generateRandomName (draw : Draw) : Name :=
  draw.adjective.val.toList ++ '_' :: draw.animal.val.toList

/-! ### Names from users -/

/-- The classification of characters by Unicode: `islower`, `isdigit` and `lower`. It is the usual
one for ASCII, and a text of lower-case letters, digits, hyphens and underscores is in lower case
already. -/
structure Unicode where
  isLower : Char → Bool
  isDigit : Char → Bool
  lower : Name → Name
  isLower_ascii : ∀ c : Char, c.toNat < 128 → isLower c = c.isLower
  isDigit_ascii : ∀ c : Char, c.toNat < 128 → isDigit c = c.isDigit
  lower_eq_self : ∀ s : Name,
    (∀ c ∈ s, isLower c = true ∨ isDigit c = true ∨ c = '_' ∨ c = '-') → lower s = s

variable (u : Unicode)

/-- What becomes of a character of a name in lower case. -/
def Unicode.sanitizeChar (c : Char) : Option Char :=
  if u.isLower c || u.isDigit c || c = '_' then some c
  else if c = ' ' || c = '.' || c = '-' then some '-'
  else none

/-- The characters at which a name does not begin or end. -/
def isEdge (c : Char) : Bool :=
  c = '-' || c = '_'

def maxLength : ℕ := 63

/-- The name without what is not fit, which may be nothing. -/
def cleanName (name : Name) : Name :=
  let kept := (u.lower name).filterMap u.sanitizeChar
  let sanitized := Replacing.trim isEdge (Replacing.replaceAll ['-', '-'] ['-'] kept)
  if maxLength < sanitized.length then (sanitized.take maxLength).rdropWhile isEdge else sanitized

/-- `sanitize_name`; `draw` is the random name that it falls back on. -/
def sanitizeName (name : Name) (draw : Draw) : Name :=
  if name = [] then []
  else if cleanName u name = [] then generateRandomName draw
  else cleanName u name

def reservedNames : List Name :=
  ["www", "api", "admin", "root", "mail", "ftp", "ns", "ns1", "ns2"].map String.toList

/-- `is_reserved_name`; in production `test` is reserved, too. -/
def isReservedName (domain : Name) (name : Name) : Bool :=
  domain = "devservers.io".toList && u.lower name = "test".toList ||
    reservedNames.contains (u.lower name)

/-! ### Names in use -/

/-- An item of the domain mappings, as far as it is read. Without an expiry time, or with one that
cannot be read, it counts as expired. -/
structure Item where
  domainName : Option Name
  expiresAt : Option Expiry
  deriving DecidableEq

def Item.isLive (now : ℚ) (item : Item) : Bool :=
  now < (item.expiresAt.map Expiry.time).getD 0

/-- The names of the live mappings of a page. -/
def liveNames (now : ℚ) (page : List Item) : List Name :=
  page.filterMap fun item =>
    match item.domainName with
    | none | some [] => none
    | some name => if item.isLive now then some name else none

/-- The environment of the functions. -/
structure Env where
  domainName : Name
  hostedZoneId : Name
  mappingsTable : Name

/-- A scan of the table comes in pages. -/
structure Scan where
  first : List Item
  rest : List (List Item)

/-- The names of the record sets of the zone, without the domain. -/
def zoneNames (domainName : Name) (records : List (RecordType × Name)) : List Name :=
  let ending := '.' :: domainName ++ ['.']
  (records.filter fun r => (r.1 = .a || r.1 = .cname) && ending.isSuffixOf r.2).map fun r =>
    Replacing.replace ending [] r.2

/-- `get_existing_dns_names`. Of the scan only the first page is read. -/
def getExistingDnsNames (env : Env) (now : ℚ) (scan : Except String Scan)
    (zone : Except String (List (RecordType × Name))) : List Name :=
  if env.domainName = [] || env.hostedZoneId = [] || env.mappingsTable = [] then []
  else
    match scan with
    | .ok pages => liveNames now pages.first
    | .error _ =>
      match zone with
      | .ok records => zoneNames env.domainName records
      | .error _ => []

/-! ### A unique name -/

/-- The name from which the others are made, and how many random names it has taken. -/
def baseName (domain : Name) (preferredName : Option Name) (draws : ℕ → Draw) : Name × ℕ :=
  match preferredName with
  | none | some [] => (generateRandomName (draws 0), 1)
  | some name =>
    let base := sanitizeName u name (draws 0)
    (if isReservedName u domain base then base ++ "-alt".toList else base,
      if cleanName u name = [] then 1 else 0)

/-- The name with a number. -/
def numbered (base : Name) (i : ℕ) : Name :=
  base ++ '-' :: (toString i).toList

/-- A reading of the clock: a time since 1970 in seconds, which fits into 64 bits. -/
structure Clock where
  now : ℚ
  nonneg : 0 ≤ now
  lt : now < 2 ^ 63

def timestampName (clock : Clock) : Name :=
  "dev-".toList ++ (toString ⌊clock.now⌋₊).toList

/-- `generate_unique_name`. The time is read again for the last resort. -/
def generateUniqueName (domain : Name) (existingNames : List Name) (preferredName : Option Name)
    (draws : ℕ → Draw) (later : Clock) : Name :=
  let isAvailable : Name → Bool := fun name =>
    !existingNames.contains name && !isReservedName u domain name
  let base := baseName u domain preferredName draws
  let randomNames := (List.range 100).map fun i => generateRandomName (draws (base.2 + i))
  if isAvailable base.1 then base.1
  else
    (((List.range' 2 998).map (numbered base.1)).find? fun name =>
      name.length ≤ maxLength && isAvailable name).getD
        ((randomNames.find? isAvailable).getD (timestampName later))

/-! ### What a name has to be -/

/-- The letters, digits, hyphens and underscores of ASCII. -/
def isNameChar (c : Char) : Bool :=
  c.isLower || c.isDigit || c = '-' || c = '_'

/-- A name that is fit for a host name. -/
structure IsDnsName (name : Name) : Prop where
  length_pos : 0 < name.length
  length_le : name.length ≤ maxLength
  chars : ∀ c ∈ name, isNameChar c = true
  head : ∀ c, name.head? = some c → isEdge c = false
  last : ∀ c, name.getLast? = some c → isEdge c = false

/-- A call of `generate_unique_name` where names are configured and the table can be scanned. -/
structure Call where
  unicode : Unicode
  env : Env
  domain_ne : env.domainName ≠ []
  zone_ne : env.hostedZoneId ≠ []
  table_ne : env.mappingsTable ≠ []
  scan : Scan
  zone : Except String (List (RecordType × Name))
  now : Clock
  later : Clock
  preferredName : Option Name
  draws : ℕ → Draw

namespace Call

variable (call : Call)

def existingNames : List Name :=
  getExistingDnsNames call.env call.now.now (.ok call.scan) call.zone

def name : Name :=
  generateUniqueName call.unicode call.env.domainName call.existingNames call.preferredName
    call.draws call.later

/-- The name is that of a mapping on some page that has not expired. -/
def IsInUse (name : Name) : Prop :=
  ∃ page ∈ call.scan.first :: call.scan.rest, ∃ item ∈ page,
    item.domainName = some name ∧ item.isLive call.now.now = true

/-- The name is valid, free and not reserved, and names are made fit once and for all. -/
structure NamesWell : Prop where
  valid : IsDnsName call.name
  notReserved : isReservedName call.unicode call.env.domainName call.name = false
  free : ¬ call.IsInUse call.name
  stable : ∀ name, name ≠ [] → cleanName call.unicode name ≠ [] → ∀ draw draw',
    sanitizeName call.unicode (sanitizeName call.unicode name draw) draw' =
      sanitizeName call.unicode name draw

def base : Name × ℕ :=
  baseName call.unicode call.env.domainName call.preferredName call.draws

/-- The names that are tried, one after another. -/
def candidates : List Name :=
  call.base.1 :: (((List.range' 2 998).map (numbered call.base.1)).filter
      fun name => name.length ≤ maxLength) ++
    (List.range 100).map fun i => generateRandomName (call.draws (call.base.2 + i))

/-- A name is passed over if it is reserved, or that of a live mapping on the first page. -/
def isTaken (name : Name) : Bool :=
  (liveNames call.now.now call.scan.first).contains name ||
    isReservedName call.unicode call.env.domainName name

/-- The first of the names that is not passed over is in ASCII and not in use by a mapping on a
later page; if all of them are passed over, the name made of the time is not in use. -/
structure IsSafe : Prop where
  candidate : ∀ before name after, call.candidates = before ++ name :: after →
    (∀ x ∈ before, call.isTaken x = true) → call.isTaken name = false →
    (∀ c ∈ name, c.toNat < 128) ∧
      ∀ page ∈ call.scan.rest, name ∉ liveNames call.now.now page
  lastResort : (∀ x ∈ call.candidates, call.isTaken x = true) →
    ∀ page ∈ call.scan.first :: call.scan.rest,
      timestampName call.later ∉ liveNames call.now.now page

end Call

/-! ### Names made fit -/

/-- A name of the right length whose characters are kept and whose ends are no edges. -/
structure IsShaped (name : Name) : Prop where
  ne_nil : name ≠ []
  length_le : name.length ≤ maxLength
  chars : ∀ c ∈ name, u.isLower c = true ∨ u.isDigit c = true ∨ c = '_' ∨ c = '-'
  head : ∀ c, name.head? = some c → isEdge c = false
  last : ∀ c, name.getLast? = some c → isEdge c = false

variable {u} {name base : Name} {domain : Name} {call : Call}

theorem sanitizeChar_of_kept {c : Char}
    (h : u.isLower c = true ∨ u.isDigit c = true ∨ c = '_' ∨ c = '-') :
    u.sanitizeChar c = some c := by
  unfold Unicode.sanitizeChar
  split_ifs with hkept hhyphen
  · rfl
  · rcases h with h | h | rfl | rfl
    · simp [h] at hkept
    · simp [h] at hkept
    · simp at hkept
    · rfl
  · rcases h with h | h | rfl | rfl <;> simp_all

theorem kept_of_sanitizeChar {c d : Char} (h : u.sanitizeChar c = some d) :
    u.isLower d = true ∨ u.isDigit d = true ∨ d = '_' ∨ d = '-' := by
  unfold Unicode.sanitizeChar at h
  split_ifs at h with hkept
  · obtain rfl := Option.some.inj h
    simp only [Bool.or_eq_true, decide_eq_true_eq] at hkept
    tauto
  · exact Or.inr (Or.inr (Or.inr (Option.some.inj h).symm))

/-- A clean name is shaped, if it is not empty, and has no two hyphens in a row. -/
theorem cleanName_isShaped (h : cleanName u name ≠ []) :
    IsShaped u (cleanName u name) ∧ ¬ ['-', '-'] <:+: cleanName u name := by
  obtain ⟨s, hs⟩ : ∃ s, s = Replacing.trim isEdge (Replacing.replaceAll ['-', '-'] ['-']
    ((u.lower name).filterMap u.sanitizeChar)) := ⟨_, rfl⟩
  have hclean : cleanName u name =
      if maxLength < s.length then (s.take maxLength).rdropWhile isEdge else s := by
    rw [hs]
    rfl
  have hpart : cleanName u name <:+: s := by
    rw [hclean]
    split_ifs
    · exact ((List.rdropWhile_prefix _ _).trans (List.take_prefix _ _)).isInfix
    · exact List.infix_rfl
  have hwhole : s <:+: Replacing.replaceAll ['-', '-'] ['-']
      ((u.lower name).filterMap u.sanitizeChar) := hs ▸ Replacing.trim_isInfix _ _
  refine ⟨⟨h, ?_, fun c hc => ?_, ?_, ?_⟩, fun hhyphens => ?_⟩
  · rw [hclean]
    split_ifs with hlong
    · exact (List.rdropWhile_prefix _ _).length_le.trans (List.length_take_le _ _)
    · exact Nat.le_of_not_lt hlong
  · rcases Replacing.mem_replaceAll (hwhole.subset (hpart.subset hc)) with hkept | hhyphen
    · obtain ⟨d, -, hd⟩ := List.mem_filterMap.mp hkept
      exact kept_of_sanitizeChar hd
    · exact Or.inr (Or.inr (Or.inr (List.mem_singleton.mp hhyphen)))
  · have hleft : s.dropWhile isEdge = s := hs ▸ Replacing.dropWhile_trim _ _
    rw [← Replacing.dropWhile_eq_self_iff, hclean]
    split_ifs
    · exact Replacing.dropWhile_of_prefix hleft
        ((List.rdropWhile_prefix _ _).trans (List.take_prefix _ _))
    · exact hleft
  · rw [← Replacing.rdropWhile_eq_self_iff, hclean]
    split_ifs
    · exact List.rdropWhile_idempotent _ _
    · exact hs ▸ Replacing.rdropWhile_trim _ _
  · exact Replacing.not_infix_replaceAll (by decide) (hhyphens.trans (hpart.trans hwhole))

/-- Such a name is left alone. -/
theorem cleanName_eq_self (h : IsShaped u name) (hhyphens : ¬ ['-', '-'] <:+: name) :
    cleanName u name = name := by
  have hkept : (u.lower name).filterMap u.sanitizeChar = name := by
    rw [u.lower_eq_self name h.chars]
    calc name.filterMap u.sanitizeChar = name.filterMap some :=
          List.filterMap_congr fun c hc => sanitizeChar_of_kept (h.chars c hc)
      _ = name := List.filterMap_some
  have htrim : Replacing.trim isEdge (Replacing.replaceAll ['-', '-'] ['-'] name) = name := by
    rw [Replacing.replaceAll_of_not_infix hhyphens,
      Replacing.trim_eq_self (Replacing.dropWhile_eq_self_iff.mpr h.head)
        (Replacing.rdropWhile_eq_self_iff.mpr h.last)]
  simp only [cleanName, hkept, htrim]
  rw [if_neg (Nat.not_lt.mpr h.length_le)]

/-- Making a name fit twice is making it fit once. -/
theorem sanitizeName_idem (hname : name ≠ []) (h : cleanName u name ≠ []) (draw draw' : Draw) :
    sanitizeName u (sanitizeName u name draw) draw' = sanitizeName u name draw := by
  obtain ⟨hshaped, hhyphens⟩ := cleanName_isShaped h
  have hclean := cleanName_eq_self hshaped hhyphens
  simp only [sanitizeName, if_neg hname, if_neg h, hclean]

/-! ### The candidates -/

theorem toNat_lt_of_isNameChar {c : Char} (h : isNameChar c = true) : c.toNat < 128 := by
  have hkinds : (((decide ('a'.val ≤ c.val) && decide (c.val ≤ 'z'.val)) ||
      (decide ('0'.val ≤ c.val) && decide (c.val ≤ '9'.val))) || decide (c = '-') ||
      decide (c = '_')) = true := h
  simp only [Bool.or_eq_true, Bool.and_eq_true, decide_eq_true_eq,
    UInt32.le_iff_toNat_le] at hkinds
  rcases hkinds with ((h | h) | rfl) | rfl
  · exact Nat.lt_of_le_of_lt h.2 (by decide)
  · exact Nat.lt_of_le_of_lt h.2 (by decide)
  · decide
  · decide

theorem isNameChar_of_kept {c : Char} (hascii : c.toNat < 128)
    (h : u.isLower c = true ∨ u.isDigit c = true ∨ c = '_' ∨ c = '-') : isNameChar c = true := by
  rw [u.isLower_ascii c hascii, u.isDigit_ascii c hascii] at h
  simp only [isNameChar, Bool.or_eq_true, decide_eq_true_eq]
  tauto

/-- A shaped name is valid exactly if it is in ASCII. -/
theorem IsShaped.isDnsName_iff (h : IsShaped u name) :
    IsDnsName name ↔ ∀ c ∈ name, c.toNat < 128 := by
  constructor
  · exact fun hname c hc => toNat_lt_of_isNameChar (hname.chars c hc)
  · intro hascii
    exact ⟨List.length_pos_of_ne_nil h.ne_nil, h.length_le,
      fun c hc => isNameChar_of_kept (hascii c hc) (h.chars c hc), h.head, h.last⟩

/-- A suffix that does not end at an edge keeps the shape, if there is room. -/
theorem IsShaped.append (h : IsShaped u name) {suffix : Name} (hne : suffix ≠ [])
    (hlength : (name ++ suffix).length ≤ maxLength)
    (hchars : ∀ c ∈ suffix, u.isLower c = true ∨ u.isDigit c = true ∨ c = '_' ∨ c = '-')
    (hlast : ∀ c, suffix.getLast? = some c → isEdge c = false) : IsShaped u (name ++ suffix) where
  ne_nil := List.append_ne_nil_of_right_ne_nil name hne
  length_le := hlength
  chars := List.forall_mem_append.mpr ⟨h.chars, hchars⟩
  head := by
    intro c hc
    obtain ⟨d, hd⟩ := Option.ne_none_iff_exists'.mp (mt List.head?_eq_none_iff.mp h.ne_nil)
    rw [List.head?_append, hd, Option.some_or] at hc
    exact h.head c (hd.trans hc)
  last := by
    intro c hc
    obtain ⟨d, hd⟩ := Option.ne_none_iff_exists'.mp (mt List.getLast?_eq_none_iff.mp hne)
    rw [List.getLast?_append, hd, Option.some_or] at hc
    exact hlast c (hd.trans hc)

/-- Lower-case letters and digits of ASCII are kept, and are no edges. -/
theorem kept_of_alnum (u : Unicode) {c : Char} (h : c.isLower = true ∨ c.isDigit = true) :
    u.isLower c = true ∨ u.isDigit c = true ∨ c = '_' ∨ c = '-' := by
  have hascii : c.toNat < 128 := toNat_lt_of_isNameChar (by simp [isNameChar, h])
  rw [u.isLower_ascii c hascii, u.isDigit_ascii c hascii]
  exact h.elim Or.inl fun hdigit => Or.inr (Or.inl hdigit)

theorem isEdge_of_alnum {c : Char} (h : c.isLower = true ∨ c.isDigit = true) :
    isEdge c = false := by
  simp only [isEdge, Bool.or_eq_false_iff, decide_eq_false_iff_not]
  constructor <;>
    (rintro rfl; revert h; decide)

/-- A text of letters and digits is shaped, if it is not too long. -/
theorem isShaped_of_alnum (hne : name ≠ []) (hlength : name.length ≤ maxLength)
    (h : ∀ c ∈ name, c.isLower = true ∨ c.isDigit = true) : IsShaped u name where
  ne_nil := hne
  length_le := hlength
  chars := fun c hc => kept_of_alnum u (h c hc)
  head := fun c hc => isEdge_of_alnum (h c (List.mem_of_head? hc))
  last := fun c hc => isEdge_of_alnum (h c (List.mem_of_getLast? hc))

/-- A hyphen or an underscore, and letters or digits after it, keep the shape. -/
theorem IsShaped.append_alnum (h : IsShaped u name) {c : Char} (hc : isEdge c = true)
    {word : Name} (hne : word ≠ []) (hword : ∀ d ∈ word, d.isLower = true ∨ d.isDigit = true)
    (hlength : (name ++ c :: word).length ≤ maxLength) : IsShaped u (name ++ c :: word) := by
  refine h.append (List.cons_ne_nil c word) hlength (List.forall_mem_cons.mpr ⟨?_, ?_⟩) ?_
  · simp only [isEdge, Bool.or_eq_true, decide_eq_true_eq] at hc
    tauto
  · exact fun d hd => kept_of_alnum u (hword d hd)
  · intro d hd
    rw [List.getLast?_cons_of_ne_nil hne] at hd
    exact isEdge_of_alnum (hword d (List.mem_of_getLast? hd))

/-- What the lists of words have in common. -/
def isWord (word : String) : Bool :=
  word.toList ≠ [] && word.toList.length ≤ 11 && word.toList.all Char.isLower

theorem isWord_adjectives : ∀ word ∈ adjectives, isWord word = true := by decide +kernel

theorem isWord_animals : ∀ word ∈ animals, isWord word = true := by decide +kernel

/-- A random name is in ASCII and shaped. -/
theorem isShaped_generateRandomName (u : Unicode) (draw : Draw) :
    IsShaped u (generateRandomName draw) ∧ ∀ c ∈ generateRandomName draw, c.toNat < 128 := by
  have hadjective := isWord_adjectives _ draw.adjective.2
  have hanimal := isWord_animals _ draw.animal.2
  simp only [isWord, Bool.and_eq_true, decide_eq_true_eq, List.all_eq_true] at hadjective hanimal
  obtain ⟨⟨hne, hlength⟩, hlower⟩ := hadjective
  obtain ⟨⟨hne', hlength'⟩, hlower'⟩ := hanimal
  have hshape : IsShaped u (generateRandomName draw) := by
    refine (isShaped_of_alnum hne ?_ fun c hc => Or.inl (hlower c hc)).append_alnum rfl hne'
      (fun c hc => Or.inl (hlower' c hc)) ?_
    · exact hlength.trans (by decide)
    · rw [List.length_append, List.length_cons, maxLength]
      omega
  refine ⟨hshape, fun c hc => ?_⟩
  have hchar : isNameChar c = true := by
    rcases List.mem_append.mp hc with hc | hc
    · simp [isNameChar, hlower c hc]
    · rcases List.mem_cons.mp hc with rfl | hc
      · rfl
      · simp [isNameChar, hlower' c hc]
  exact toNat_lt_of_isNameChar hchar

theorem isDigit_of_mem_toString {n : ℕ} {c : Char} (h : c ∈ (toString n).toList) :
    c.isDigit = true := by
  have htext : (toString n).toList = Nat.toDigits 10 n := Nat.toList_repr
  rw [htext] at h
  exact Nat.isDigit_of_mem_toDigits (by decide) (by decide) h

theorem toString_ne_nil (n : ℕ) : (toString n).toList ≠ [] := by
  have htext : (toString n).toList = Nat.toDigits 10 n := Nat.toList_repr
  rw [htext]
  exact Nat.toDigits_ne_nil

theorem IsShaped.numbered (h : IsShaped u name) {n : ℕ}
    (hlength : (numbered name n).length ≤ maxLength) : IsShaped u (numbered name n) :=
  h.append_alnum rfl (toString_ne_nil n) (fun _ hd => Or.inr (isDigit_of_mem_toString hd)) hlength

/-! ### The name that is returned -/

/-- Reserved names are short. -/
theorem length_le_of_isReservedName (hkept : u.lower name = name)
    (h : isReservedName u domain name = true) : name.length ≤ 5 := by
  have hshort : ∀ r ∈ "test".toList :: reservedNames, r.length ≤ 5 := by decide
  rw [isReservedName, hkept, Bool.or_eq_true, Bool.and_eq_true, decide_eq_true_eq,
    decide_eq_true_eq, List.contains_iff_mem] at h
  rcases h with ⟨-, rfl⟩ | hmem
  · exact hshort _ List.mem_cons_self
  · exact hshort _ (List.mem_cons_of_mem _ hmem)

theorem isShaped_sanitizeName (hname : name ≠ []) (draw : Draw) :
    IsShaped u (sanitizeName u name draw) := by
  rw [sanitizeName, if_neg hname]
  split_ifs with hclean
  · exact (isShaped_generateRandomName u draw).1
  · exact (cleanName_isShaped hclean).1

theorem isShaped_baseName (u : Unicode) (domain : Name) (preferredName : Option Name)
    (draws : ℕ → Draw) : IsShaped u (baseName u domain preferredName draws).1 := by
  rcases preferredName with _ | _ | ⟨c, name⟩
  · exact (isShaped_generateRandomName u _).1
  · exact (isShaped_generateRandomName u _).1
  · have hshape : IsShaped u (sanitizeName u (c :: name) (draws 0)) :=
      isShaped_sanitizeName (List.cons_ne_nil c name) _
    simp only [baseName]
    split_ifs with hreserved
    · have hlength := length_le_of_isReservedName (u.lower_eq_self _ hshape.chars) hreserved
      have halt : ∀ c ∈ ['a', 'l', 't'], c.isLower = true ∨ c.isDigit = true := by decide
      have hsuffix : "-alt".toList = '-' :: ['a', 'l', 't'] := by decide
      rw [hsuffix]
      refine hshape.append_alnum rfl (List.cons_ne_nil _ _) halt ?_
      rw [List.length_append, maxLength]
      simp only [List.length_cons, List.length_nil]
      omega
    · exact hshape

theorem timestampName_eq (clock : Clock) :
    timestampName clock = numbered ['d', 'e', 'v'] ⌊clock.now⌋₊ := by
  have hdev : "dev-".toList = ['d', 'e', 'v'] ++ ['-'] := by decide
  rw [timestampName, hdev, numbered, List.append_assoc, List.singleton_append]

theorem length_timestampName (clock : Clock) : (timestampName clock).length ≤ maxLength := by
  have htext : (toString ⌊clock.now⌋₊).toList = Nat.toDigits 10 ⌊clock.now⌋₊ := Nat.toList_repr
  have hfloor : ⌊clock.now⌋₊ < 10 ^ 19 := by
    have hlt : ⌊clock.now⌋₊ < 2 ^ 63 := (Nat.floor_lt clock.nonneg).mpr (mod_cast clock.lt)
    omega
  have hdigits : (Nat.toDigits 10 ⌊clock.now⌋₊).length ≤ 19 :=
    (Nat.length_toDigits_le_iff (by decide) (by decide)).mpr hfloor
  rw [timestampName_eq, numbered, htext, maxLength, List.length_append, List.length_cons]
  simp only [List.length_cons, List.length_nil]
  omega

theorem isShaped_timestampName (u : Unicode) (clock : Clock) :
    IsShaped u (timestampName clock) ∧ ∀ c ∈ timestampName clock, c.toNat < 128 := by
  have hlength := length_timestampName clock
  rw [timestampName_eq] at hlength ⊢
  refine ⟨(isShaped_of_alnum (by simp) (by decide) (by decide)).numbered hlength, fun c hc => ?_⟩
  have hdev : ∀ c ∈ ['d', 'e', 'v'], c.toNat < 128 := by decide
  rcases List.mem_append.mp hc with hc | hc
  · exact hdev c hc
  · rcases List.mem_cons.mp hc with rfl | hc
    · decide
    · exact toNat_lt_of_isNameChar (by simp [isNameChar, isDigit_of_mem_toString hc])

/-- The time makes a name that is not reserved. -/
theorem isReservedName_timestampName (u : Unicode) (domain : Name) (clock : Clock) :
    isReservedName u domain (timestampName clock) = false := by
  have hother : ∀ r ∈ "test".toList :: reservedNames, r.head? ≠ some 'd' := by decide
  have hhead : (timestampName clock).head? = some 'd' := by
    rw [timestampName_eq]
    rfl
  have hne : ∀ r ∈ "test".toList :: reservedNames, timestampName clock ≠ r := by
    rintro r hr rfl
    exact hother _ hr hhead
  rw [isReservedName, u.lower_eq_self _ (isShaped_timestampName u clock).1.chars,
    decide_eq_false (hne _ List.mem_cons_self), Bool.and_false, Bool.false_or,
    Bool.eq_false_iff, ne_eq, List.contains_iff_mem]
  exact fun hmem => hne _ (List.mem_cons_of_mem _ hmem) rfl

theorem mem_liveNames {now : ℚ} {page : List Item} (hname : name ≠ []) :
    name ∈ liveNames now page ↔
      ∃ item ∈ page, item.domainName = some name ∧ item.isLive now = true := by
  unfold liveNames
  rw [List.mem_filterMap]
  refine exists_congr fun item => and_congr_right fun _ => ?_
  rcases item.domainName with _ | _ | ⟨c, cs⟩
  · simp
  · simp [hname.symm]
  · rw [Option.ite_none_right_eq_some, and_comm]

namespace Call

theorem existingNames_eq (call : Call) :
    call.existingNames = liveNames call.now.now call.scan.first := by
  simp [existingNames, getExistingDnsNames, call.domain_ne, call.zone_ne, call.table_ne]

/-- The name is the first candidate that is not passed over, or that made of the time. -/
theorem name_eq (call : Call) :
    call.name = (call.candidates.find? fun x => !call.isTaken x).getD
      (timestampName call.later) := by
  have htaken : ∀ x, (!call.existingNames.contains x &&
      !isReservedName call.unicode call.env.domainName x) = !call.isTaken x := by
    intro x
    rw [existingNames_eq, isTaken, Bool.not_or]
  simp only [name, generateUniqueName, htaken, candidates, List.cons_append, List.find?_cons,
    List.find?_append, List.find?_filter]
  change (if !call.isTaken call.base.1 then call.base.1 else _) = _
  cases call.isTaken call.base.1 with
  | false => rfl
  | true =>
    simp only [Bool.not_true, Bool.false_eq_true, if_false, Option.getD_or, Bool.decide_and,
      Bool.decide_eq_true]
    rfl

theorem isShaped_of_mem_candidates (h : name ∈ call.candidates) : IsShaped call.unicode name := by
  have hbase : IsShaped call.unicode call.base.1 := isShaped_baseName _ _ _ _
  rcases List.mem_append.mp h with h | h
  · rcases List.mem_cons.mp h with rfl | h
    · exact hbase
    · obtain ⟨hmem, hlength⟩ := List.mem_filter.mp h
      obtain ⟨i, -, rfl⟩ := List.mem_map.mp hmem
      exact hbase.numbered (of_decide_eq_true hlength)
  · obtain ⟨i, -, rfl⟩ := List.mem_map.mp h
    exact (isShaped_generateRandomName _ _).1

/-- What there is to show of the name, if it is shaped and not reserved. -/
theorem namesWell_iff_of_isShaped (hshape : IsShaped call.unicode call.name)
    (hreserved : isReservedName call.unicode call.env.domainName call.name = false) :
    call.NamesWell ↔ (∀ c ∈ call.name, c.toNat < 128) ∧
      ∀ page ∈ call.scan.first :: call.scan.rest,
        call.name ∉ liveNames call.now.now page := by
  have hfree : ¬ call.IsInUse call.name ↔ ∀ page ∈ call.scan.first :: call.scan.rest,
      call.name ∉ liveNames call.now.now page := by
    simp only [IsInUse, mem_liveNames hshape.ne_nil, not_exists, not_and]
  rw [← hshape.isDnsName_iff, ← hfree]
  constructor
  · exact fun h => ⟨h.valid, h.free⟩
  · exact fun h => ⟨h.1, hreserved, h.2, fun name hname hclean draw draw' =>
      sanitizeName_idem hname hclean draw draw'⟩

end Call

/-- Names are made well exactly if the first that is not passed over is safe. -/
theorem namesWell_iff (call : Call) : call.NamesWell ↔ call.IsSafe := by
  have hname := call.name_eq
  cases hfind : call.candidates.find? fun x => !call.isTaken x with
  | some name =>
    rw [hfind, Option.getD_some] at hname
    obtain ⟨hopen, before, after, hsplit, hbefore⟩ := List.find?_eq_some_iff_append.mp hfind
    have hopen' : call.isTaken name = false := by simpa using hopen
    obtain ⟨hfirst, hreserved⟩ := Bool.or_eq_false_iff.mp hopen'
    have hshape : IsShaped call.unicode name :=
      Call.isShaped_of_mem_candidates (hsplit ▸ by simp)
    have hnotFirst : name ∉ liveNames call.now.now call.scan.first := by
      simpa using hfirst
    rw [call.namesWell_iff_of_isShaped (hname ▸ hshape) (hname ▸ hreserved), hname,
      List.forall_mem_cons]
    constructor
    · rintro ⟨hascii, -, hfree⟩
      refine ⟨fun before' name' after' hsplit' hbefore' hopen'' => ?_, fun htaken => ?_⟩
      · -- The candidate that is spoken of is the first one that is not passed over.
        have hfind' : (call.candidates.find? fun x => !call.isTaken x) = some name' :=
          List.find?_eq_some_iff_append.mpr ⟨by simp [hopen''], before', after', hsplit',
            fun x hx => by simp [hbefore' x hx]⟩
        obtain rfl := Option.some.inj (hfind.symm.trans hfind')
        exact ⟨hascii, hfree⟩
      · rw [htaken name (hsplit ▸ by simp)] at hopen'
        cases hopen'
    · intro h
      have hsafe := h.candidate before name after hsplit
        (fun x hx => by simpa using hbefore x hx) hopen'
      exact ⟨hsafe.1, hnotFirst, hsafe.2⟩
  | none =>
    rw [hfind, Option.getD_none] at hname
    have htaken : ∀ x ∈ call.candidates, call.isTaken x = true := by
      simpa using hfind
    obtain ⟨hshape, hascii⟩ := isShaped_timestampName call.unicode call.later
    rw [call.namesWell_iff_of_isShaped (hname ▸ hshape)
      (hname ▸ isReservedName_timestampName _ _ _), hname]
    constructor
    · rintro ⟨-, hfree⟩
      refine ⟨fun before name after hsplit _ hopen => ?_, fun _ => hfree⟩
      rw [htaken name (hsplit ▸ by simp)] at hopen
      cases hopen
    · exact fun h => ⟨hascii, h.lastResort htaken⟩

/-- The classification of ASCII, and of one more letter. -/
def latin : Unicode where
  isLower c := c.isLower || c = 'é'
  isDigit c := c.isDigit
  lower s := s.map Char.toLower
  isLower_ascii := by
    intro c hc
    have hne : c ≠ 'é' := by
      rintro rfl
      exact absurd hc (by decide)
    simp [hne]
  isDigit_ascii _ _ := rfl
  lower_eq_self := by
    intro s hs
    refine (List.map_congr_left fun c hc => ?_).trans (List.map_id s)
    rcases hs c hc with h | h | rfl | rfl
    · rcases Bool.or_eq_true_iff.mp h with h | h
      · exact Characters.toLower_eq_of_isLower h
      · obtain rfl := of_decide_eq_true h
        decide
    · exact Characters.toLower_eq_of_lt (Characters.lt_of_isDigit h)
    · decide
    · decide

/-- A name with a letter that is not in ASCII is kept as it is. -/
theorem not_namesWell : ¬ ∀ call : Call, call.NamesWell := by
  intro h
  have hvalid := (h
    { unicode := latin
      env := ⟨"devservers.io".toList, "Z0123".toList, "ssh-domain-mappings".toList⟩
      domain_ne := by decide
      zone_ne := by decide
      table_ne := by decide
      scan := ⟨[], []⟩
      zone := .ok []
      now := ⟨1760000000, by decide +kernel, by decide +kernel⟩
      later := ⟨1760000000, by decide +kernel, by decide +kernel⟩
      preferredName := some "josé".toList
      draws := fun _ => ⟨⟨"brave", by decide⟩, ⟨"bear", by decide⟩⟩ }).valid
  have hchar := hvalid.chars 'é' (by decide +kernel)
  exact absurd hchar (by decide)

end CiInfra.GpuDev.DnsNames
