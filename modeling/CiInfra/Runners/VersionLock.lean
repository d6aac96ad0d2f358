import CiInfra.Lib.RelyGuarantee
import Mathlib.Data.List.Nodup
import Mathlib.Data.Nat.Basic
import Mathlib.Order.Basic

/-!
# The version lock of the runner image

A deploy looks up the image that is pinned for its commit in a ConfigMap. If there is none, it
resolves the latest release and prepends an entry, under the resource version that it has read; on
a conflict it reads again and takes what another deploy may have pinned meanwhile. The history is
cut to its newest entries.
-/

namespace CiInfra.Runners.VersionLock

open Interaction Fallible

/-- What is raised: an `ApiError` with its status code, a `ValueError`, or anything else. -/
inductive Failure
  | api (code : ℕ)
  | value (message : String)
  | other (message : String)
  deriving DecidableEq

/-- An entry of the history. -/
structure Entry where
  osdcSha : String
  tag : String
  digest : String
  resolvedAt : String
  deriving DecidableEq

/-- What is stored under `history.json`. -/
inductive Data
  /-- The key is not there. -/
  | missing
  /-- It is not a list of entries. -/
  | malformed
  | history (entries : List Entry)

/-- The ConfigMap. -/
structure ConfigMap where
  data : Data
  resourceVersion : ℕ

/-- The entries of the ConfigMap, if it has any. -/
def Data.entries : Data → List Entry
  | history entries => entries
  | _ => []

/-- The API server: the ConfigMap, if it exists, and the revision of the latest write. -/
structure Server where
  configMap : Option ConfigMap
  revision : ℕ
  /-- The ConfigMap is not newer than the latest write. -/
  bounded : ∀ cm ∈ configMap, cm.resourceVersion ≤ revision

namespace Server

/-- The stored history. -/
def entries (s : Server) : List Entry := ((s.configMap.map (·.data)).map Data.entries).getD []

/-- Store a history under a fresh resource version. -/
def write (s : Server) (entries : List Entry) : Server where
  configMap := some ⟨.history entries, s.revision + 1⟩
  revision := s.revision + 1
  bounded := by simp

@[simp] theorem entries_write (s : Server) (l : List Entry) : (s.write l).entries = l := rfl

@[simp] theorem revision_write (s : Server) (l : List Entry) :
    (s.write l).revision = s.revision + 1 := rfl

end Server

/-- The calls. -/
inductive Op
  /-- `client.get(ConfigMap, ...)`. -/
  | get
  /-- `client.create(cm)`. -/
  | create (entries : List Entry)
  /-- `client.replace(cm)`. -/
  | replace (resourceVersion : Option ℕ) (entries : List Entry)
  /-- `tag_name` of the latest release, if it is a text. -/
  | latestRelease
  /-- `crane digest`. -/
  | digest (tag : String)
  /-- `datetime.now(UTC)`, as it is written down. -/
  | now

/-- What a read shows: the data, and the resource version if there is any metadata. -/
abbrev Shown := Data × Option ℕ

/-- The answers to each call. -/
def Op.Res : Op → Type
  | get => Except Failure Shown
  | create _ => Except Failure Unit
  | replace _ _ => Except Failure Unit
  | latestRelease => Except Failure (Option String)
  | digest _ => Except Failure String
  | now => String

/-- The history that a call writes. -/
def Op.written : Op → Option (List Entry)
  | create entries => some entries
  | replace _ entries => some entries
  | _ => none

/-- The server accepts a write: a create where there is nothing, a replacement of what there is,
under its resource version if one is named. -/
def Op.IsAccepted : Op → Server → Prop
  | create _, s => s.configMap = none
  | replace resourceVersion _, s =>
    ∃ cm, s.configMap = some cm ∧ ∀ v ∈ resourceVersion, v = cm.resourceVersion
  | _, _ => False

/-- How a write may be answered. One that goes through is accepted. One that raises may have been
accepted, but for one that raises a conflict. -/
def Op.AnswersWrite (op : Op) (l : List Entry) (s : Server) (r : Except Failure Unit)
    (s' : Server) : Prop :=
  match r with
  | .ok () => op.IsAccepted s ∧ s' = s.write l
  | .error e => s' = s ∨ op.IsAccepted s ∧ s' = s.write l ∧ e ≠ .api 409

/-- `op.Answers s r s'`: the server in the state `s` may answer the call `r`, leaving `s'`. A read
that is answered shows what is stored; it is answered 404 only where there is nothing. -/
def Op.Answers : (op : Op) → Server → op.Res → Server → Prop
  | get, s, r, s' => s' = s ∧ match r with
    | .ok shown => ∃ cm, s.configMap = some cm ∧ shown = (cm.data, some cm.resourceVersion)
    | .error e => e = .api 404 → s.configMap = none
  | create l, s, r, s' => (create l).AnswersWrite l s r s'
  | replace v l, s, r, s' => (replace v l).AnswersWrite l s r s'
  | latestRelease, s, _, s' => s' = s
  | digest _, s, _, s' => s' = s
  | now, s, _, s' => s' = s

/-- Programs that resolve a version. -/
abbrev Resolver := Fallible Op Op.Res Failure

/-! ### The script -/

/-- `HISTORY_MAX`. -/
def historyMax : ℕ := 20

/-- `MAX_WRITE_ATTEMPTS`. -/
def maxWriteAttempts : ℕ := 5

/-- `IMAGE_REPO`. -/
def imageRepo : String := "ghcr.io/actions/actions-runner"

/-- `f"{IMAGE_REPO}:{tag}@{digest}"`. -/
def imageOf (tag digest : String) : String := imageRepo ++ ":" ++ tag ++ "@" ++ digest

/-- The image that an entry pins. -/
def Entry.image (e : Entry) : String := imageOf e.tag e.digest

/-- What `read_history` gives: the history, whether the ConfigMap exists, and its version. -/
structure Snapshot where
  history : List Entry
  cmExists : Bool
  resourceVersion : Option ℕ

/-- `client.get`, where a 404 gives nothing. -/
def getConfigMap : Resolver (Option Shown) :=
  tryCatch (request .get fun r => r.map some) fun
    | .api 404 => return none
    | e => throw e

/-- `read_history`. -/
def readHistory : Resolver Snapshot := do
  let shown ← getConfigMap
  match shown with
  | none => return ⟨[], false, none⟩
  | some (.missing, resourceVersion) => return ⟨[], true, resourceVersion⟩
  | some (.malformed, _) => throw (.value "history.json must contain a JSON list")
  | some (.history entries, resourceVersion) => return ⟨entries, true, resourceVersion⟩

/-- `find_cached_entry`. -/
def findCachedEntry (history : List Entry) (sha : String) : Option Entry :=
  history.find? fun entry => entry.osdcSha = sha

/-- `update_history`. -/
def updateHistory (history : List Entry) (newEntry : Entry) : List Entry :=
  (newEntry :: history.filter fun e => e.osdcSha ≠ newEntry.osdcSha).take historyMax

/-- `write_history`. -/
def writeHistory (history : List Entry) (snapshot : Snapshot) : Resolver Unit :=
  if snapshot.cmExists then request (.replace snapshot.resourceVersion history) id
  else request (.create history) id

/-- `fetch_latest_tag`. -/
def fetchLatestTag : Resolver String := do
  let tagName ← request .latestRelease id
  match tagName with
  | none => throw (.value "GitHub releases response missing 'tag_name'")
  | some tag =>
    if tag = "" then throw (.value "GitHub releases response missing 'tag_name'")
    else return String.ofList (tag.toList.dropWhile (· = 'v'))

/-- `resolve_digest`. -/
def resolveDigest (tag : String) : Resolver String := do
  let digest ← request (.digest tag) id
  if "sha256:".toList.isPrefixOf digest.toList then return digest
  else throw (.value "crane digest returned unexpected value")

/-- One write: whether it went through, where a conflict is not raised while attempts are left. -/
def tryWrite (history : List Entry) (snapshot : Snapshot) (attemptsLeft : ℕ) : Resolver Bool :=
  tryCatch (do
    writeHistory history snapshot
    return true) fun
    | .api 409 => if 0 < attemptsLeft then return false else throw (.api 409)
    | e => throw e

/-- The write attempts from a snapshot without an entry for the commit. -/
def writeAttempts (sha tag digest : String) : ℕ → Snapshot → Resolver String
  | 0, _ => throw (.other "write retries exhausted")
  | attemptsLeft + 1, snapshot => do
    let resolvedAt ← request .now .ok
    let newHistory := updateHistory snapshot.history ⟨sha, tag, digest, resolvedAt⟩
    let written ← tryWrite newHistory snapshot attemptsLeft
    if written then return imageOf tag digest
    else do
      let snapshot ← readHistory
      match findCachedEntry snapshot.history sha with
      | some cached => return cached.image
      | none => writeAttempts sha tag digest attemptsLeft snapshot

/-- The image of the newest entry, for a deploy that must not write. -/
def newestImage (history : List Entry) : Resolver String :=
  match history with
  | [] => throw (.value "OSDC_RESOLVER_READONLY set but there is no entry")
  | newest :: _ => return newest.image

/-- `_run`, once the commit is known: `readonly` is `OSDC_RESOLVER_READONLY`. -/
def run (sha : String) (readonly : Bool) : Resolver String := do
  let snapshot ← readHistory
  match findCachedEntry snapshot.history sha with
  | some cached => return cached.image
  | none =>
    if readonly then newestImage snapshot.history
    else do
      let tag ← fetchLatestTag
      let digest ← resolveDigest tag
      writeAttempts sha tag digest maxWriteAttempts snapshot

/-! ### What the executions do to each other -/

/-- Writes may have happened between two states: the ConfigMap is as it was, or newer than all
that was written before. -/
structure Server.Evolves (s s' : Server) : Prop where
  revision : s.revision ≤ s'.revision
  configMap : ∀ cm ∈ s'.configMap, s.configMap = some cm ∨ s.revision < cm.resourceVersion

theorem Server.Evolves.refl (s : Server) : s.Evolves s := ⟨le_rfl, fun _ h => Or.inl h⟩

theorem Server.Evolves.trans {s t u : Server} (hst : s.Evolves t) (htu : t.Evolves u) :
    s.Evolves u := by
  refine ⟨hst.revision.trans htu.revision, fun cm hcm => ?_⟩
  rcases htu.configMap cm hcm with ht | hnew
  · exact hst.configMap cm ht
  · exact Or.inr (lt_of_le_of_lt hst.revision hnew)

theorem Server.evolves_write (s : Server) (l : List Entry) : s.Evolves (s.write l) := by
  refine ⟨Nat.le_succ _, fun cm hcm => Or.inr ?_⟩
  cases hcm
  exact Nat.lt_succ_self _

/-- A write is accepted, or it changes nothing. -/
theorem Op.AnswersWrite.cases {op : Op} {l : List Entry} {s s' : Server} {r : Except Failure Unit}
    (h : op.AnswersWrite l s r s') : s' = s ∨ op.IsAccepted s ∧ s' = s.write l := by
  cases r with
  | ok _ => exact Or.inr h
  | error _ => exact h.imp_right fun h => ⟨h.1, h.2.1⟩

/-- A call leaves the server as it is, or its write is accepted. -/
theorem Op.Answers.cases {op : Op} {s s' : Server} {r : op.Res} (h : op.Answers s r s') :
    s' = s ∨ ∃ l ∈ op.written, op.IsAccepted s ∧ s' = s.write l := by
  cases op with
  | get => exact Or.inl h.1
  | create l => exact (Op.AnswersWrite.cases h).imp_right fun h => ⟨l, rfl, h⟩
  | replace v l => exact (Op.AnswersWrite.cases h).imp_right fun h => ⟨l, rfl, h⟩
  | _ => exact Or.inl h

theorem Op.Answers.evolves {op : Op} {s s' : Server} {r : op.Res} (h : op.Answers s r s') :
    s.Evolves s' := by
  rcases h.cases with rfl | ⟨l, -, -, rfl⟩
  · exact Server.Evolves.refl s'
  · exact s.evolves_write l

/-- The snapshot was read at some time up to now. -/
structure Snapshot.IsPast (snapshot : Snapshot) (s : Server) : Prop where
  absent : snapshot.cmExists = false → snapshot.history = []
  version : snapshot.cmExists = true → ∃ v, snapshot.resourceVersion = some v ∧ v ≤ s.revision ∧
    ∀ cm ∈ s.configMap, cm.resourceVersion = v → cm.data.entries = snapshot.history

theorem Snapshot.IsPast.evolves {snapshot : Snapshot} {s s' : Server} (h : snapshot.IsPast s)
    (hs : s.Evolves s') : snapshot.IsPast s' := by
  refine ⟨h.absent, fun hexists => ?_⟩
  obtain ⟨v, hv, hle, hcurrent⟩ := h.version hexists
  refine ⟨v, hv, hle.trans hs.revision, fun cm hcm hversion => ?_⟩
  rcases hs.configMap cm hcm with hold | hnew
  · exact hcurrent cm hold hversion
  · omega

/-- What a write from a snapshot replaces, if it is accepted, is the history of the snapshot. -/
theorem Snapshot.IsPast.entries_eq {snapshot : Snapshot} {s : Server} (h : snapshot.IsPast s)
    {l : List Entry} (haccepted : (if snapshot.cmExists = true then
      Op.replace snapshot.resourceVersion l else .create l).IsAccepted s) :
    s.entries = snapshot.history := by
  cases hexists : snapshot.cmExists with
  | false =>
    rw [hexists] at haccepted
    have hnone : s.configMap = none := haccepted
    simp [Server.entries, hnone, h.absent hexists]
  | true =>
    rw [hexists] at haccepted
    obtain ⟨cm, hcm, hversion⟩ := haccepted
    obtain ⟨v, hv, -, hcurrent⟩ := h.version hexists
    have hentries := hcurrent cm hcm (hversion v hv).symm
    simp [Server.entries, hcm, hentries]

/-- A write of an execution for a commit: if it is accepted, it adds an entry for the commit to
what is stored, where there is none. -/
def Adds (sha : String) (op : Op) (s : Server) : Prop :=
  ∀ l ∈ op.written, op.IsAccepted s → findCachedEntry s.entries sha = none ∧
    ∃ x : Entry, x.osdcSha = sha ∧ l = updateHistory s.entries x

theorem findCachedEntry_updateHistory (history : List Entry) (x : Entry) :
    findCachedEntry (updateHistory history x) x.osdcSha = some x := by
  simp [findCachedEntry, updateHistory, historyMax]

section Among

variable {sha : String} {s : Server}

theorem adds_of_written {op : Op} (h : op.written = none) : Adds sha op s := fun l hl _ => by
  rw [h] at hl
  cases hl

/-- A call that writes nothing. -/
theorem among_quiet {α : Type} {op : Op} {answer : op.Res → Except Failure α}
    (h : op.written = none) :
    (request op answer : Resolver α).Among Op.Answers Server.Evolves (Adds sha)
      (fun _ s' => s.Evolves s') (fun _ _ => True) s := by
  refine among_request (fun s' _ => adds_of_written h) (fun s' r s'' _ hs hr _ => ?_)
    fun _ _ _ _ _ _ _ => trivial
  exact hs.trans hr.evolves

/-- A read of the history gives what is stored. -/
theorem among_readHistory :
    readHistory.Among Op.Answers Server.Evolves (Adds sha)
      (fun snapshot s' => snapshot.IsPast s' ∧ s'.entries = snapshot.history) (fun _ _ => True)
      s := by
  have hget : getConfigMap.Among Op.Answers Server.Evolves (Adds sha)
      (fun shown s' => shown = s'.configMap.map fun cm => (cm.data, some cm.resourceVersion))
      (fun _ _ => True) s := by
    refine Among.tryCatch (E := fun e s' => e = .api 404 → s'.configMap = none)
      (among_request (fun _ _ => adds_of_written rfl) (fun s' r s'' shown _ hr hshown => ?_)
        fun s' r s'' e _ hr he => ?_) fun e s' he => ?_
    · obtain ⟨rfl, hr⟩ := hr
      cases r with
      | error e => cases hshown
      | ok shown' =>
        cases hshown
        obtain ⟨cm, hcm, rfl⟩ := hr
        rw [hcm]
        rfl
    · obtain ⟨rfl, hr⟩ := hr
      cases r with
      | ok shown => cases he
      | error e' =>
        cases he
        exact hr
    · split
      · exact among_pure (by rw [he rfl]; rfl)
      · exact among_throw trivial
  refine hget.bind fun shown s' hshown => ?_
  cases hcm : s'.configMap with
  | none =>
    rw [hcm] at hshown
    subst hshown
    exact among_pure ⟨⟨fun _ => rfl, fun h => nomatch h⟩, by simp [Server.entries, hcm]⟩
  | some cm =>
    rw [hcm] at hshown
    subst hshown
    obtain ⟨data, version⟩ := cm
    have hpast : ∀ history, data.entries = history →
        (⟨history, true, some version⟩ : Snapshot).IsPast s' := fun history hdata =>
      ⟨fun h => (nomatch h), fun _ => ⟨version, rfl, s'.bounded _ hcm, fun cm' hcm' _ => by
        cases Option.some.inj (hcm.symm.trans hcm')
        exact hdata⟩⟩
    cases data with
    | missing => exact among_pure ⟨hpast [] rfl, by simp [Server.entries, hcm, Data.entries]⟩
    | malformed => exact among_throw trivial
    | history entries =>
      exact among_pure ⟨hpast entries rfl, by simp [Server.entries, hcm, Data.entries]⟩

/-- A write from a snapshot without an entry for the commit leaves what it writes. -/
theorem among_writeHistory {snapshot : Snapshot} {x : Entry} (hpast : snapshot.IsPast s)
    (hmiss : findCachedEntry snapshot.history x.osdcSha = none) :
    (writeHistory (updateHistory snapshot.history x) snapshot).Among Op.Answers Server.Evolves
      (Adds x.osdcSha) (fun _ s' => s'.entries = updateHistory snapshot.history x)
      (fun _ s' => s.Evolves s') s := by
  have hadds : ∀ (op : Op), op.written = some (updateHistory snapshot.history x) →
      (∀ s', op.IsAccepted s' → snapshot.IsPast s' → s'.entries = snapshot.history) →
      ∀ s', s.Evolves s' → Adds x.osdcSha op s' := by
    intro op hwritten hop s' hs l hl haccepted
    obtain rfl : updateHistory snapshot.history x = l :=
      Option.some.inj (hwritten.symm.trans hl)
    rw [hop s' haccepted (hpast.evolves hs)]
    exact ⟨hmiss, x, rfl, rfl⟩
  unfold writeHistory
  split
  · rename_i hexists
    refine among_request (hadds _ rfl fun s' h hpast => hpast.entries_eq (by rwa [if_pos hexists]))
      (fun s' r s'' _ _ hr hok => ?_) fun s' r s'' _ hs hr _ => hs.trans hr.evolves
    obtain rfl : r = .ok () := hok
    rw [(show _ ∧ _ from hr).2, Server.entries_write]
  · rename_i hexists
    refine among_request (hadds _ rfl fun s' h hpast => hpast.entries_eq (by rwa [if_neg hexists]))
      (fun s' r s'' _ _ hr hok => ?_) fun s' r s'' _ hs hr _ => hs.trans hr.evolves
    obtain rfl : r = .ok () := hok
    rw [(show _ ∧ _ from hr).2, Server.entries_write]

theorem among_tryWrite {snapshot : Snapshot} {x : Entry} (hpast : snapshot.IsPast s)
    (hmiss : findCachedEntry snapshot.history x.osdcSha = none) (attemptsLeft : ℕ) :
    (tryWrite (updateHistory snapshot.history x) snapshot attemptsLeft).Among Op.Answers
      Server.Evolves (Adds x.osdcSha)
      (fun written s' => written = true → s'.entries = updateHistory snapshot.history x)
      (fun _ _ => True) s := by
  refine Among.tryCatch ((among_writeHistory hpast hmiss).bind fun _ s' h =>
    among_pure fun _ => h) fun e s' _ => ?_
  split
  · split
    · exact among_pure fun h => nomatch h
    · exact among_throw trivial
  · exact among_throw trivial

/-- The image is the one that is stored for the commit. -/
def Pins (sha : String) (image : String) (s : Server) : Prop :=
  ∃ x, findCachedEntry s.entries sha = some x ∧ image = x.image

theorem among_writeAttempts (tag digest : String) (attempts : ℕ) {snapshot : Snapshot}
    (hpast : snapshot.IsPast s) (hmiss : findCachedEntry snapshot.history sha = none) :
    (writeAttempts sha tag digest attempts snapshot).Among Op.Answers Server.Evolves (Adds sha)
      (Pins sha) (fun _ _ => True) s := by
  induction attempts generalizing s snapshot with
  | zero => exact among_throw trivial
  | succ attemptsLeft ih =>
    refine (among_quiet rfl).bind fun resolvedAt s' hs => ?_
    refine (among_tryWrite (x := ⟨sha, tag, digest, resolvedAt⟩) (hpast.evolves hs) hmiss
      attemptsLeft).bind fun written s' hwritten => ?_
    split
    · refine among_pure ⟨⟨sha, tag, digest, resolvedAt⟩, ?_, rfl⟩
      rw [hwritten ‹_›]
      exact findCachedEntry_updateHistory _ _
    · refine among_readHistory.bind fun snapshot s' hread => ?_
      split
      · exact among_pure ⟨_, by rwa [hread.2], rfl⟩
      · exact ih hread.1 ‹_›

theorem among_fetchLatestTag :
    fetchLatestTag.Among Op.Answers Server.Evolves (Adds sha) (fun _ s' => s.Evolves s')
      (fun _ _ => True) s := by
  refine (among_quiet rfl).bind fun tagName s' hs => ?_
  split
  · exact among_throw trivial
  · split
    · exact among_throw trivial
    · exact among_pure hs

theorem among_resolveDigest (tag : String) :
    (resolveDigest tag).Among Op.Answers Server.Evolves (Adds sha) (fun _ s' => s.Evolves s')
      (fun _ _ => True) s := by
  refine (among_quiet rfl).bind fun digest s' hs => ?_
  split
  · exact among_pure hs
  · exact among_throw trivial

/-- An execution adds only entries for its commit where there are none, and gives the image that
is stored for its commit, unless it must not write. -/
theorem among_run (sha : String) (readonly : Bool) (s : Server) :
    (run sha readonly).Among Op.Answers Server.Evolves (Adds sha)
      (fun image s' => readonly = false → Pins sha image s') (fun _ _ => True) s := by
  refine among_readHistory.bind fun snapshot s hread => ?_
  split
  · exact among_pure fun _ => ⟨_, by rwa [hread.2], rfl⟩
  · cases readonly with
    | true =>
      rw [if_pos rfl]
      unfold newestImage
      split
      · exact among_throw trivial
      · exact among_pure fun h => nomatch h
    | false =>
      rw [if_neg (by decide)]
      refine among_fetchLatestTag.bind fun tag t hs => ?_
      refine (among_resolveDigest tag).bind fun digest u ht => ?_
      exact (among_writeAttempts tag digest maxWriteAttempts
        (hread.1.evolves (hs.trans ht)) ‹_›).mono (fun _ _ h _ => h) fun _ _ h => h

end Among

/-! ### Any number of executions -/

/-- An execution of the script: its commit, and whether it must not write. -/
structure Execution where
  sha : String
  readonly : Bool

/-- The program of an execution. -/
def Execution.program (x : Execution) : Program Op Op.Res (Except Failure String) :=
  (run x.sha x.readonly).run

/-- The entries of the history are for distinct commits, and no more than it is cut to. -/
structure Server.IsValid (s : Server) : Prop where
  distinct : (s.entries.map (·.osdcSha)).Nodup
  bounded : s.entries.length ≤ historyMax

/-- A call of an execution. -/
abbrev Occurrence (ι : Type) := Happening ι Op Op.Res Server

section Executions

variable {ι : Type} [DecidableEq ι] {execs : ι → Execution} {s : Server}
  {T : System ι Op Op.Res (Except Failure String) Server} {es past : List (Occurrence ι)}
  {e : Occurrence ι}

/-- The executions before any of them has begun, and what is stored. -/
def before (execs : ι → Execution) (s : Server) :
    System ι Op Op.Res (Except Failure String) Server := ⟨s, fun i => (execs i).program⟩

/-- The entry that is added, where a write is accepted. -/
def added (e : Occurrence ι) : Option Entry :=
  if e.after.revision = e.before.revision then none else e.after.entries.head?

/-- A write that is accepted adds an entry, and drops nothing but what it replaces and the oldest
of a full history. -/
def DropsOldest (e : Occurrence ι) : Prop :=
  e.after.entries = e.before.entries ∨ ∃ (x : Entry) (kept dropped : List Entry),
    e.before.entries.filter (fun y => y.osdcSha ≠ x.osdcSha) = kept ++ dropped ∧
    e.after.entries = x :: kept ∧ (dropped = [] ∨ e.after.entries.length = historyMax)

/-- The image is that of the one entry for the commit that the history has around the call. -/
def ReturnsPinned (sha image : String) (e : Occurrence ι) : Prop :=
  (∃ x ∈ e.after.entries, x.osdcSha = sha ∧ image = x.image) ∧
    ∀ y, y ∈ e.before.entries ∨ y ∈ e.after.entries → y.osdcSha = sha → image = y.image

/-- The executions agree: the stored history has one entry for each of its commits, the newest
first; an execution returns what is pinned for its commit at its last call; and nothing is dropped
but the oldest entries. -/
structure PinsAgree (execs : ι → Execution) (s : Server) (es : List (Occurrence ι))
    (T : System ι Op Op.Res (Except Failure String) Server) : Prop where
  valid : T.state.IsValid
  newestFirst : T.state.entries.Sublist (es.filterMap added ++ s.entries)
  returns : ∀ later e earlier U, es = later ++ e :: earlier →
    History Op.Answers Eq (before execs s) (e :: earlier) U →
    ∀ i c image, e.call = some (i, c) → U.procs i = .done (.ok image) →
      (execs i).readonly = false → ReturnsPinned (execs i).sha image e
  drops : ∀ e ∈ es, DropsOldest e

omit [DecidableEq ι] in
theorem keepsTo (execs : ι → Execution) (s : Server) :
    KeepsTo Op.Answers Server.Evolves Eq (fun i => Adds (execs i).sha)
      (fun i r s' => match r with
        | .ok image => (execs i).readonly = false → Pins (execs i).sha image s'
        | .error _ => True) (before execs s) where
  refl := Server.Evolves.refl
  trans _ _ _ := Server.Evolves.trans
  serve _ _ _ _ _ _ hr := hr.evolves
  env s _ h := h ▸ Server.Evolves.refl s
  among i := Program.Among.mono (among_run (execs i).sha (execs i).readonly s) fun r s h => by
    cases r <;> exact h

/-- What a call does to the history: nothing, or it adds an entry for a commit without one. -/
theorem History.step (h : History Op.Answers Eq (before execs s) (e :: past) T) {i : ι} {op : Op}
    {r : op.Res} (hcall : e.call = some (i, ⟨op, r⟩)) :
    e.after = e.before ∨ findCachedEntry e.before.entries (execs i).sha = none ∧
      ∃ x : Entry, x.osdcSha = (execs i).sha ∧
        e.after = e.before.write (updateHistory e.before.entries x) := by
  have hadds := (h.among_call (keepsTo execs s) hcall).1
  rcases (h.served List.mem_cons_self hcall).cases with hsame | ⟨l, hl, haccepted, hwrite⟩
  · exact Or.inl hsame
  · obtain ⟨hmiss, x, hx, rfl⟩ := hadds l hl haccepted
    exact Or.inr ⟨hmiss, x, hx, hwrite⟩

theorem updateHistory_eq (history : List Entry) (x : Entry) :
    updateHistory history x = x :: (history.filter fun y => y.osdcSha ≠ x.osdcSha).take 19 := rfl

theorem updateHistory_sublist (history : List Entry) (x : Entry) :
    (updateHistory history x).Sublist (x :: history) := by
  rw [updateHistory_eq]
  exact ((List.take_sublist _ _).trans List.filter_sublist).cons_cons _

/-- An added entry keeps the history valid. -/
theorem Server.IsValid.write (h : s.IsValid) (x : Entry) :
    (s.write (updateHistory s.entries x)).IsValid := by
  refine ⟨?_, List.length_take_le _ _⟩
  rw [entries_write, updateHistory_eq, List.map_cons, List.nodup_cons]
  constructor
  · intro hmem
    obtain ⟨y, hy, hsha⟩ := List.mem_map.mp hmem
    have hfilter := List.mem_of_mem_take hy
    simp [hsha] at hfilter
  · exact h.distinct.sublist (((List.take_sublist _ _).trans List.filter_sublist).map _)

/-- A valid history has one entry for a commit. -/
theorem Server.IsValid.eq_of_find (h : s.IsValid) {sha : String} {x y : Entry}
    (hx : findCachedEntry s.entries sha = some x) (hy : y ∈ s.entries) (hsha : y.osdcSha = sha) :
    y = x := by
  have hxsha : x.osdcSha = sha := by simpa [findCachedEntry] using List.find?_some hx
  exact List.inj_on_of_nodup_map h.distinct hy (List.mem_of_find?_eq_some hx)
    (hsha.trans hxsha.symm)

theorem not_mem_of_find_eq_none {history : List Entry} {sha : String}
    (h : findCachedEntry history sha = none) {y : Entry} (hy : y ∈ history) : y.osdcSha ≠ sha := by
  simpa using List.find?_eq_none.mp h y hy

omit [DecidableEq ι] in
/-- What is dropped when an entry is added are the oldest entries of a full history. -/
theorem dropsOldest_write {x : Entry}
    (h : e.after = e.before.write (updateHistory e.before.entries x)) : DropsOldest e := by
  refine Or.inr ⟨x, _, _, (List.take_append_drop 19 _).symm, by rw [h]; rfl, ?_⟩
  rw [h, Server.entries_write, updateHistory_eq, List.length_cons, List.length_take]
  by_cases hlength : (e.before.entries.filter fun y => y.osdcSha ≠ x.osdcSha).length ≤ 19
  · exact Or.inl (List.drop_eq_nil_of_le hlength)
  · exact Or.inr (by rw [historyMax]; omega)

/-- Around the last call of an execution that returns an image, the image is the pinned one. -/
theorem returnsPinned (h : History Op.Answers Eq (before execs s) (e :: past) T)
    (hafter : e.after.IsValid) {i : ι} {op : Op} {r : op.Res} {image : String}
    (hcall : e.call = some (i, ⟨op, r⟩)) (hdone : T.procs i = .done (.ok image))
    (hreadonly : (execs i).readonly = false) : ReturnsPinned (execs i).sha image e := by
  obtain ⟨-, hamong⟩ := h.among_call (keepsTo execs s) hcall
  obtain ⟨U, -, -, hstate⟩ := h.tail
  rw [hdone, ← hstate] at hamong
  obtain ⟨x, hx, rfl⟩ : Pins (execs i).sha image e.after := hamong hreadonly
  have hxsha : x.osdcSha = (execs i).sha := by simpa [findCachedEntry] using List.find?_some hx
  refine ⟨⟨x, List.mem_of_find?_eq_some hx, hxsha, rfl⟩, fun y hy hsha => ?_⟩
  have hy : y ∈ e.after.entries := by
    rcases hy with hy | hy
    · rcases History.step h hcall with hsame | ⟨hmiss, -⟩
      · rwa [hsame]
      · exact (not_mem_of_find_eq_none hmiss hy hsha).elim
    · exact hy
  rw [hafter.eq_of_find hx hy hsha]

/-- The history is valid and newest first, after any calls. -/
theorem valid_and_newestFirst (hs : s.IsValid)
    (h : History Op.Answers Eq (before execs s) es T) :
    T.state.IsValid ∧ T.state.entries.Sublist (es.filterMap added ++ s.entries) := by
  induction es generalizing T with
  | nil =>
    cases h
    exact ⟨hs, List.Sublist.refl _⟩
  | cons e past ih =>
    obtain ⟨U, hU, hbefore, hafter⟩ := h.tail
    obtain ⟨hvalid, hnewest⟩ := ih hU
    rw [← hbefore] at hvalid hnewest
    rw [← hafter, List.filterMap_cons]
    cases hcall : e.call with
    | none =>
      obtain heq : e.before = e.after := h.changed List.mem_cons_self hcall
      simpa [added, heq] using (heq ▸ ⟨hvalid, hnewest⟩ : _ ∧ _)
    | some c =>
      obtain ⟨i, op, r⟩ := c
      rcases History.step h hcall with heq | ⟨-, x, -, hwrite⟩
      · rw [heq]
        simpa [added, heq] using (⟨hvalid, hnewest⟩ : _ ∧ _)
      · have hadded : added e = some x := by
          simp [added, hwrite, updateHistory_eq]
        rw [hadded, hwrite]
        exact ⟨hvalid.write x, (updateHistory_sublist _ x).trans (hnewest.cons_cons x)⟩

/-- In every interleaving of any number of executions, the executions agree on the pinned images. -/
theorem pinsAgree (hs : s.IsValid) (h : History Op.Answers Eq (before execs s) es T) :
    PinsAgree execs s es T where
  valid := (valid_and_newestFirst hs h).1
  newestFirst := (valid_and_newestFirst hs h).2
  returns := by
    rintro later e earlier U rfl hU i ⟨op, r⟩ image hcall hdone hreadonly
    obtain ⟨V, -, -, hstate⟩ := hU.tail
    exact returnsPinned hU (hstate ▸ (valid_and_newestFirst hs hU).1) hcall hdone hreadonly
  drops := by
    intro e he
    obtain ⟨later, earlier, rfl⟩ := List.append_of_mem he
    obtain ⟨U, hU⟩ := h.earlier
    cases hcall : e.call with
    | none => exact Or.inl (congrArg Server.entries (h.changed he hcall)).symm
    | some c =>
      obtain ⟨i, op, r⟩ := c
      rcases History.step hU hcall with heq | ⟨-, x, -, hwrite⟩
      · exact Or.inl (congrArg Server.entries heq)
      · exact dropsOldest_write hwrite

end Executions

/-! ### A race for a commit -/

/-- A server that accepts what it can, with one release. -/
def serve : (op : Op) → Server → op.Res × Server
  | .get, s =>
    match s.configMap with
    | some cm => (.ok (cm.data, some cm.resourceVersion), s)
    | none => (.error (.api 404), s)
  | .create l, s =>
    match s.configMap with
    | some _ => (.error (.api 409), s)
    | none => (.ok (), s.write l)
  | .replace resourceVersion l, s =>
    match s.configMap with
    | some cm =>
      if resourceVersion.all (· = cm.resourceVersion) then (.ok (), s.write l)
      else (.error (.api 409), s)
    | none => (.error (.api 404), s)
  | .latestRelease, s => (.ok (some "v2.330.0"), s)
  | .digest _, s => (.ok ("sha256:" ++ toString s.revision), s)
  | .now, s => ("2026-08-17T16:27:45Z", s)

theorem answers_serve (op : Op) (s : Server) : op.Answers s (serve op s).1 (serve op s).2 := by
  cases op with
  | get =>
    simp only [serve]
    split
    · exact ⟨rfl, _, ‹_›, rfl⟩
    · exact ⟨rfl, fun _ => ‹_›⟩
  | create l =>
    simp only [serve]
    split
    · exact Or.inl rfl
    · exact ⟨‹_›, rfl⟩
  | replace v l =>
    simp only [serve]
    split
    · split
      · rename_i cm hcm hv
        exact ⟨⟨cm, hcm, fun w hw => by cases hw; simpa using hv⟩, rfl⟩
      · exact Or.inl rfl
    · exact Or.inl rfl
  | _ => rfl

/-- Nothing is stored. -/
def unpinned : Server := ⟨none, 0, by simp⟩

/-- Three deploys, two of them of the same commit. -/
def deploys : Fin 3 → Execution
  | 0 => ⟨"3f2a", false⟩
  | 1 => ⟨"3f2a", false⟩
  | 2 => ⟨"77c0", false⟩

/-- All deploys miss; the second pins its image, and the others meet conflicts. -/
def race : List (Turn (Fin 3) Server) :=
  [.call 0, .call 1, .call 2] ++ List.replicate 4 (.call 1) ++ List.replicate 7 (.call 2) ++
    List.replicate 5 (.call 0)

theorem pinsAgree_race :
    PinsAgree deploys unpinned (play serve (before deploys unpinned) race).1
      (play serve (before deploys unpinned) race).2 :=
  pinsAgree ⟨by decide, by decide⟩
    (History.of_play answers_serve (before deploys unpinned) race (by simp [race]))

end CiInfra.Runners.VersionLock
