import CiInfra.GpuDev.DiskOperations
import CiInfra.GpuDev.RestoredDisks

/-!
# What a completed disk operation has done

The result of an operation is the same whether its item was put or was there, also when it was there
for another reason or has been marked as deleted, and a clone refers to the latest snapshot that is
not to be deleted, also when a later one is. Otherwise a completed operation has happened.
-/

namespace CiInfra.GpuDev.SoftDeletions

open Interaction Program
open SnapshotBookkeeping (DiskKey firstMax)
open DiskRestores (mem_of_firstMax le_of_firstMax)

variable {ι : Type} [DecidableEq ι]

/-! ### Runs -/

section Runs

variable {job : ι → Job} {w : World} {es later earlier : List (Occurrence ι)} {e : Occurrence ι}
  {T : System ι Op Op.Res Unit World} {i : ι} {source key : DiskKey} {id : String}

theorem keeps_step (h : History Op.Answers Elsewhere (start job w) es T) (he : e ∈ es) :
    Keeps e.before e.after := by
  cases hcall : e.call with
  | none => exact (h.changed he hcall).keeps
  | some c => exact (h.served he hcall).1.keeps

theorem keeps_before (h : History Op.Answers Elsewhere (start job w) es T) (he : e ∈ es) :
    Keeps e.before T.state :=
  h.stays (K := fun s => Keeps e.before s) (fun _ hd hkeeps => hkeeps.trans (keeps_step h hd)) e he
    (.refl _)

theorem keeps_after (h : History Op.Answers Elsewhere (start job w) (later ++ e :: earlier) T) :
    Keeps e.after T.state :=
  h.holds_since (K := fun s => Keeps e.after s) (.refl _) fun _ hd hkeeps =>
    hkeeps.trans (keeps_step h (List.mem_append_left _ hd))

theorem grounded_call (h : History Op.Answers Elsewhere (start job w) (later ++ e :: earlier) T)
    {op : Op} {r : op.Res} (hcall : e.call = some (i, ⟨op, r⟩)) :
    Grounded (job i) (earlier.filterMap (Happening.callOf i)) op :=
  h.heeds (Job.grounded (job i)) hcall

/-- The item that has been made for a disk stays, if the disk is not deleted. -/
theorem record_of_makes {program : ι → Prop}
    (h : History Op.Answers Elsewhere (start job w) es T) (he : e ∈ es)
    (hmakes : Makes program key e) (hunmarked : ∀ deed ∈ T.state.deeds, deed.marks ≠ some key) :
    ∃ j, program j ∧ ∃ item ∈ T.state.record key, item.isDeleted = some false ∧
      ∀ source ∈ (job j).source, ∃ id ∈ item.cloneSourceSnapshot,
        Chosen source (es.filterMap (Happening.callOf j)) id := by
  obtain ⟨⟨⟨j, op, r⟩, hcall, hj, hputs⟩, hnone, hsome⟩ := hmakes
  cases op with
  | putIfAbsent key' item =>
    cases hputs
    obtain ⟨later, earlier, rfl⟩ := List.append_of_mem he
    obtain ⟨-, hput⟩ | ⟨-, hsame⟩ := (h.served he hcall).1
    · obtain ⟨-, hlive, hsource⟩ := grounded_call h hcall
      have hitem : item ∈ e.after.record key := by
        rw [hput]
        exact World.record_updateItem_self ..
      obtain ⟨item', hitem', hdeleted, hclone⟩ := (keeps_after h).items key item hitem hunmarked
      refine ⟨j, hj, item', hitem', hdeleted.trans hlive, fun source hjsource => ?_⟩
      obtain ⟨id, hid, hchosen⟩ := hsource source hjsource
      refine ⟨id, hclone.trans hid, ?_⟩
      rw [← List.singleton_append, ← List.append_assoc, List.filterMap_append]
      exact hchosen.append _
    · exact absurd (hsame ▸ hnone) hsome
  | _ => cases hputs

theorem mem_notDeleted {shown : List Snapshot} {s : Snapshot} :
    s ∈ notDeleted shown ↔ s ∈ shown ∧ s.deleteDate = none := by
  rw [notDeleted, List.mem_filter, Option.isNone_iff_eq_none]

/-- What a listing at the first call has shown is what the disk had then. -/
theorem Begins.shown (h : History Op.Answers Elsewhere (start job w) (later ++ e :: earlier) T)
    (hbegins : Begins i earlier e) {shown : List Snapshot}
    (hlisted : Listed source shown ((later ++ e :: earlier).filterMap (Happening.callOf i))) :
    e.callOf i = some ⟨.describeCompletedOf source, .ok shown⟩ ∧
      ∀ s, s ∈ shown ↔ e.before.Has source s := by
  obtain ⟨c, hc⟩ := Option.isSome_iff_exists.mp hbegins.1
  obtain rfl := Option.some.inj ((hbegins.getLast?_calls hc later).symm.trans hlisted)
  exact ⟨hc, (h.served (by simp) (Happening.callOf_eq_some.mp hc)).2 shown rfl⟩

/-- A snapshot that was chosen from a listing is the latest. -/
theorem latest_of_listed (h : History Op.Answers Elsewhere (start job w) (later ++ e :: earlier) T)
    {shown : List Snapshot} {s : Snapshot} (hshown : ∀ s, s ∈ shown ↔ e.before.Has source s)
    (hmax : firstMax Snapshot.startTime (notDeleted shown) = some s) (hlatest : LatestStays shown)
    (hpurges : PurgesOnlyOld e.before T.state source shown) :
    .purged s.id ∉ T.state.deeds ∧ ∃ s' ∈ T.state.current s.id, s'.disk = some source ∧
      ∀ t, e.before.Has source t → t.startTime ≤ s'.startTime := by
  obtain ⟨hs, hkept⟩ := mem_notDeleted.mp (mem_of_firstMax hmax)
  have hhas := (hshown s).mp hs
  obtain ⟨s', hs', hdisk, hstart, -⟩ :=
    (keeps_before h (e := e) (by simp)).snapshots s.id s hhas.current
  have hsource : s'.disk = some source := hdisk.trans hhas.disk
  refine ⟨fun hpurged => ?_, s', hs', hsource, fun t ht => ?_⟩
  · obtain hold | hother | ⟨t, ht, hid, hdeleted⟩ := hpurges _ hpurged s.id rfl
    · exact hhas.unpurged hold
    · exact hother s' hs' hsource
    · have hcurrent := ((hshown t).mp ht).current
      rw [hid, hhas.current] at hcurrent
      cases hcurrent
      simp [hkept] at hdeleted
  · obtain ⟨t', ht', hkept', hle⟩ := hlatest ⟨s, hs, hkept⟩ t ((hshown t).mpr ht)
    rw [hstart]
    exact hle.trans (le_of_firstMax hmax t' (mem_notDeleted.mpr ⟨ht', hkept'⟩))

/-- A snapshot that was created since the first call is the latest. -/
theorem latest_of_created {between : List (Occurrence ι)} {d : Occurrence ι} {volume : String}
    (h : History Op.Answers Elsewhere (start job w)
      ((later ++ d :: between) ++ e :: earlier) T)
    {shown : List Snapshot} (hshown : ∀ s, s ∈ shown ↔ e.before.Has source s)
    (hcreated : d.call = some (i, ⟨.createSnapshot volume source, .ok id⟩))
    (hpurges : PurgesOnlyOld e.before T.state source shown) :
    .purged id ∉ T.state.deeds ∧ ∃ s ∈ T.state.current id, s.disk = some source ∧
      ∀ t, e.before.Has source t → t.startTime ≤ s.startTime := by
  have hsplit : (later ++ d :: between) ++ e :: earlier = later ++ d :: (between ++ e :: earlier) :=
    by simp
  have hbefore : Keeps e.before d.before := by
    obtain ⟨U, hU, hstate⟩ := (hsplit ▸ h).before
    exact hstate ▸ keeps_before hU (by simp)
  obtain ⟨s, rfl, hdisk, hrequest, hnew, hunpurged, hlater⟩ :=
    (h.served (by simp) hcreated).2 _ rfl
  have hcurrent : s ∈ d.after.current s.id := by
    rw [hrequest]
    unfold World.current World.request
    dsimp only
    rw [Function.update_self]
    rfl
  obtain ⟨s', hs', hdisk', hstart, -⟩ := (keeps_after (hsplit ▸ h)).snapshots s.id s hcurrent
  have hsource : s'.disk = some source := hdisk'.trans hdisk
  refine ⟨fun hpurged => ?_, s', hs', hsource, fun t ht => ?_⟩
  · obtain hold | hother | ⟨t, ht, hid, -⟩ := hpurges _ hpurged s.id rfl
    · exact hunpurged (hbefore.deeds hold)
    · exact hother s' hs' hsource
    · obtain ⟨t', ht', -⟩ := hbefore.snapshots t.id t ((hshown t).mp ht).current
      rw [World.current, hid, hnew] at ht'
      cases ht'
  · obtain ⟨t', ht', -, hstart', hcompleted⟩ := hbefore.snapshots t.id t ht.current
    rw [hstart, ← hstart']
    exact hlater t.id t' ht' (hcompleted ht.completed)

/-- What was chosen is the latest, as the disk was at the first call. -/
theorem latest_of_chosen (h : History Op.Answers Elsewhere (start job w) (later ++ e :: earlier) T)
    (hbegins : Begins i earlier e)
    (hchosen : Chosen source ((later ++ e :: earlier).filterMap (Happening.callOf i)) id)
    (hgood : ∀ c ∈ e.callOf i, LatestStays (c.1.showsCompleted c.2) ∧
      PurgesOnlyOld e.before T.state source (c.1.showsCompleted c.2)) :
    .purged id ∉ T.state.deeds ∧ ∃ s ∈ T.state.current id, s.disk = some source ∧
      ∀ t, e.before.Has source t → t.startTime ≤ s.startTime := by
  obtain ⟨shown, hlisted, hchoice⟩ := hchosen
  obtain ⟨hcall, hshown⟩ := Begins.shown h hbegins hlisted
  obtain ⟨hlatest, hpurges⟩ := hgood _ hcall
  obtain ⟨s, hmax, rfl⟩ | ⟨volume, created, hcreated, s, rest, hdescribed, rfl⟩ := hchoice
  · exact latest_of_listed h hshown hmax hlatest hpurges
  · obtain ⟨d, hd, hdcall⟩ := History.mem_callsOf.mp hcreated
    obtain ⟨d', hd', hdcall'⟩ := History.mem_callsOf.mp hdescribed
    have hid : s.id = created := (h.served hd' hdcall').2 _ rfl s List.mem_cons_self
    rw [hid]
    have hdof := Happening.callOf_eq_some.mpr hdcall
    rcases hbegins.mem_between hd (by rw [hdof]; rfl) with rfl | hbetween
    · cases hcall.symm.trans hdof
    · obtain ⟨later', between, rfl⟩ := List.append_of_mem hbetween
      exact latest_of_created h hshown hdcall hpurges

theorem isLatest_of_chosen (h : History Op.Answers Elsewhere (start job w) es T)
    (hchosen : Chosen source (es.filterMap (Happening.callOf i)) id)
    (hgood : AtFirstCall i (fun d => ∀ c ∈ d.callOf i, LatestStays (c.1.showsCompleted c.2) ∧
      PurgesOnlyOld d.before T.state source (c.1.showsCompleted c.2)) es) :
    IsLatest i es T.state source id := by
  obtain ⟨d, hd, hdcall⟩ : ∃ d ∈ es, (d.callOf i).isSome = true := by
    obtain ⟨shown, hlisted, -⟩ := hchosen
    obtain ⟨d, hd, hdcall⟩ := History.mem_callsOf.mp (List.mem_of_getLast? hlisted)
    exact ⟨d, hd, by rw [Happening.callOf_eq_some.mpr hdcall]; rfl⟩
  obtain ⟨later, first, earlier, rfl, hbegins⟩ := exists_begins hd hdcall
  obtain ⟨hunpurged, s, hs, hdisk, -⟩ :=
    latest_of_chosen h hbegins hchosen (Throughout.at hgood hbegins)
  refine ⟨hunpurged, s, hs, hdisk,
    Throughout.intro fun later' first' earlier' hsplit hbegins' => ?_⟩
  rw [hsplit] at h hchosen hgood
  obtain ⟨-, s', hs', -, hbound⟩ :=
    latest_of_chosen h hbegins' hchosen (Throughout.at hgood hbegins')
  cases hs.symm.trans hs'
  exact hbound

/-- What was put, or was there, has been made for the message. -/
theorem exists_makes (h : History Op.Answers Elsewhere (start job w) es T)
    (hcall : e ∈ es ∧ ∃ c ∈ e.callOf i, c.1.settles c.2 = some key)
    (hrefused : ∀ d ∈ es, (∃ c ∈ d.callOf i, c.1.refuses c.2 = some key) →
      d.before.items key = [] ∨ ∃ m ∈ es, Makes (fun j => job j = job i) key m) :
    ∃ m ∈ es, Makes (fun j => job j = job i) key m := by
  obtain ⟨he, ⟨op, r⟩, hop, hsettles⟩ := hcall
  have hserved := h.served he (Happening.callOf_eq_some.mp hop)
  have hmakes {item : Item} {r : Except PutFailure Unit}
      (hop : e.callOf i = some ⟨.putIfAbsent key item, r⟩) (hnone : e.before.items key = [])
      (hsome : e.after.items key ≠ []) : Makes (fun j => job j = job i) key e :=
    ⟨⟨_, Happening.callOf_eq_some.mp hop, rfl, rfl⟩, hnone, hsome⟩
  cases op with
  | putIfAbsent key' item =>
    cases r with
    | ok answer =>
      cases hsettles
      obtain ⟨hnone, hput⟩ | ⟨hfailed, -⟩ := hserved.1
      · refine ⟨e, he, hmakes hop hnone fun hafter => ?_⟩
        have hrecord := World.record_updateItem_self e.before key fun _ => item
        rw [World.record, ← World.putItem, ← hput, hafter] at hrecord
        cases hrecord
      · exact absurd rfl hfailed
    | error failure =>
      cases failure with
      | conditionalCheckFailed =>
        cases hsettles
        obtain hnone | hmade := hrefused e he ⟨_, hop, rfl⟩
        · exact ⟨e, he, hmakes hop hnone (hserved.2 rfl)⟩
        · exact hmade
      | other => cases hsettles
  | _ => cases hsettles

/-- A result that is written where nothing came between is true. -/
theorem isTrue_of_undisturbed (h : History Op.Answers Elsewhere (start job w) es T)
    {operation status : String} {error : Option String}
    (hgrounded : Grounded (job i) (es.filterMap (Happening.callOf i))
      (.writeResult operation status error))
    (hundisturbed : status = "completed" → ∀ key ∈ (job i).target,
      Undisturbed job i es T.state key) :
    ∃ key ∈ (job i).target, IsTrue job i es T.state key status := by
  obtain ⟨key, hkey, hfailed | ⟨hcompleted, c, hc, hsettles⟩⟩ := hgrounded
  · subst hfailed
    exact ⟨key, hkey, fun hc => absurd hc (by decide), fun hc => absurd hc (by decide),
      fun _ _ => rfl⟩
  · obtain ⟨hrefused, hunmarked, hlisted⟩ := hundisturbed hcompleted key hkey
    obtain ⟨e, he, hcall⟩ := History.mem_callsOf.mp hc
    obtain ⟨m, hm, hmakes⟩ := exists_makes h
      ⟨he, c, Happening.callOf_eq_some.mpr hcall, hsettles⟩ hrefused
    refine ⟨key, hkey, fun _ => ?_, fun _ source hsource => ?_, fun _ hnone => ?_⟩
    · obtain ⟨j, -, item, hitem, hlive, -⟩ := record_of_makes h hm hmakes hunmarked
      exact ⟨item, hitem, by rw [hlive]; decide⟩
    · by_cases hown : Makes (fun j => j = i) key m
      · obtain ⟨j, rfl, item, hitem, -, hchosen⟩ := record_of_makes h hm hown hunmarked
        obtain ⟨id, hid, hchosen⟩ := hchosen source hsource
        exact Or.inr ⟨item, hitem, id, hid,
          isLatest_of_chosen h hchosen (hlisted source hsource ⟨m, hm, hown⟩)⟩
      · obtain ⟨⟨c, hc, hsame, hputs⟩, hbefore, hafter⟩ := hmakes
        refine Or.inl ⟨m, hm, ⟨c, hc, ⟨fun hci => hown ?_, hsame⟩, hputs⟩, hbefore, hafter⟩
        exact ⟨⟨c, hc, hci, hputs⟩, hbefore, hafter⟩
    · exact absurd hmakes (hnone m hm)

end Runs

/-- In every run in which nothing comes between a completed operation and its disk, what the results
say has happened: the disk is there and not deleted, a clone refers to the latest snapshot, and a
disk that was there for another reason is a failure. -/
theorem tellsTruth_run {job : ι → Job} {w : World} {es : List (Occurrence ι)}
    {T : System ι Op Op.Res Unit World}
    (h : History Op.Answers Elsewhere (start job w) es T)
    (hundisturbed : Throughout (CompletesUndisturbed job) es) :
    Throughout (TellsTruth job) es := by
  refine Throughout.imp (fun later e earlier hsplit hcompletes c hc status hstatus => ?_)
    hundisturbed
  rw [hsplit] at h
  obtain ⟨i, op, r⟩ := c
  cases op with
  | writeResult operation status' error =>
    cases hstatus
    obtain ⟨U, hU, hbefore⟩ := h.before
    rw [hbefore]
    refine isTrue_of_undisturbed hU (grounded_call h hc) fun hcompleted key hkey => ?_
    exact hbefore ▸ hcompletes _ hc (congrArg some hcompleted) key hkey
  | _ => cases hstatus

/-! ### A clone, and a disk that is created again -/

instance (program : ι → Prop) [DecidablePred program] (key : DiskKey) (e : Occurrence ι) :
    Decidable (Makes program key e) :=
  inferInstanceAs (Decidable ((∃ c ∈ e.call, program c.1 ∧ c.2.1.puts = some key) ∧
    e.before.items key = [] ∧ e.after.items key ≠ []))

instance (shown : List Snapshot) : Decidable (LatestStays shown) :=
  inferInstanceAs (Decidable ((∃ s ∈ shown, s.deleteDate = none) →
    ∀ s ∈ shown, ∃ t ∈ shown, t.deleteDate = none ∧ s.startTime ≤ t.startTime))

instance (w w' : World) (key : DiskKey) (shown : List Snapshot) :
    Decidable (PurgesOnlyOld w w' key shown) :=
  inferInstanceAs (Decidable (∀ deed ∈ w'.deeds, ∀ id ∈ deed.purges, deed ∈ w.deeds ∨
    (∀ s ∈ w'.current id, s.disk ≠ some key) ∨ ∃ s ∈ shown, s.id = id ∧ s.deleteDate.isSome = true))

theorem undisturbed_iff {job : ι → Job} {i : ι} {past : List (Occurrence ι)} {w : World}
    {key : DiskKey} : Undisturbed job i past w key ↔
      (∀ d ∈ past, (∃ c ∈ d.callOf i, c.1.refuses c.2 = some key) → d.before.items key = [] ∨
        ∃ m ∈ past, Makes (fun j => job j = job i) key m) ∧
      (∀ deed ∈ w.deeds, deed.marks ≠ some key) ∧
      ∀ source ∈ (job i).source, (∃ d ∈ past, Makes (fun j => j = i) key d) →
        AtFirstCall i (fun d => ∀ c ∈ d.callOf i, LatestStays (c.1.showsCompleted c.2) ∧
          PurgesOnlyOld d.before w source (c.1.showsCompleted c.2)) past :=
  ⟨fun h => ⟨h.refused, h.unmarked, h.listed⟩, fun h => ⟨h.1, h.2.1, h.2.2⟩⟩

instance (job : ι → Job) (i : ι) (past : List (Occurrence ι)) (w : World) (key : DiskKey) :
    Decidable (Undisturbed job i past w key) := decidable_of_iff' _ undisturbed_iff

instance (job : ι → Job) (past : List (Occurrence ι)) (e : Occurrence ι) :
    Decidable (CompletesUndisturbed job past e) :=
  inferInstanceAs (Decidable (∀ c ∈ e.call, c.2.1.writes = some "completed" →
    ∀ key ∈ (job c.1).target, Undisturbed job c.1 past e.before key))

def copy : DiskKey := ("ada", "copy")

/-- The completed snapshot of the disk. -/
def backup : Snapshot := { id := "snap-1", disk := some thesis, completed := true }

/-- The disk has a completed snapshot. -/
def backedUp : World where
  items key := if key = thesis then [newItem 0] else []
  snapshots id := if id = "snap-1" then [backup] else []
  today := "2026-01-01"
  deeds := [.requested "snap-1" thesis]

def copyItem : Item :=
  { newItem 0 with clonedFrom := some "thesis", cloneSourceSnapshot := some "snap-1" }

/-- The message that clones the disk. -/
def cloneThesis (_ : Fin 1) : Job :=
  .cloneDisk (some ⟨some "ada", some "thesis", some "copy", some "op-1"⟩)

/-- The clone is made and its result written. -/
def cloned : List (Occurrence (Fin 1)) :=
  [⟨some (0, ⟨.writeResult "op-1" "completed" none, .ok ()⟩), backedUp.putItem copy copyItem,
      backedUp.putItem copy copyItem⟩,
    ⟨some (0, ⟨.putIfAbsent copy copyItem, .ok ()⟩), backedUp, backedUp.putItem copy copyItem⟩,
    ⟨some (0, ⟨.getItem thesis, .ok (some (newItem 0))⟩), backedUp, backedUp⟩,
    ⟨some (0, ⟨.wallClock, (0 : ℤ)⟩), backedUp, backedUp⟩,
    ⟨some (0, ⟨.describeCompletedOf thesis, .ok [backup]⟩), backedUp, backedUp⟩]

theorem current_backedUp {id : String} {s : Snapshot} (h : s ∈ backedUp.current id) :
    id = "snap-1" ∧ s = backup := by
  unfold World.current backedUp at h
  dsimp only at h
  split at h
  · cases h
    exact ⟨‹_›, rfl⟩
  · cases h

theorem has_backedUp (s : Snapshot) : s ∈ [backup] ↔ backedUp.Has thesis s := by
  constructor
  · intro hs
    obtain rfl := List.mem_singleton.mp hs
    exact ⟨rfl, by decide, rfl, rfl⟩
  · intro hs
    exact List.mem_singleton.mpr (current_backedUp hs.current).2

theorem history_cloned :
    ∃ T, History Op.Answers Elsewhere (start cloneThesis backedUp) cloned T := by
  have hstart : History Op.Answers Elsewhere (start cloneThesis backedUp) [] _ := .nil
  have hshown : Op.Answers (.describeCompletedOf thesis) backedUp (.ok [backup]) backedUp := by
    refine ⟨⟨rfl, fun shown hshown s hs => ?_⟩, fun shown hshown s => ?_⟩
    · cases hshown
      obtain rfl := List.mem_singleton.mp hs
      exact ⟨List.mem_cons_self, rfl, rfl⟩
    · cases hshown
      exact has_backedUp s
  have hclock : Op.Answers .wallClock backedUp (0 : ℤ) backedUp := ⟨rfl, trivial⟩
  have hitem : Op.Answers (.getItem thesis) backedUp (.ok (some (newItem 0))) backedUp :=
    ⟨rfl, trivial⟩
  have hput : Op.Answers (.putIfAbsent copy copyItem) backedUp (.ok ())
      (backedUp.putItem copy copyItem) := ⟨Or.inl ⟨rfl, rfl⟩, fun h => by cases h⟩
  have hresult : Op.Answers (.writeResult "op-1" "completed" none)
      (backedUp.putItem copy copyItem) (.ok ()) (backedUp.putItem copy copyItem) := ⟨rfl, trivial⟩
  have hlisted := History.call (i := 0) hstart rfl hshown
  have htimed := History.call (i := 0) hlisted rfl hclock
  have hread := History.call (i := 0) htimed rfl hitem
  have hmade := History.call (i := 0) hread rfl hput
  exact ⟨_, History.call (i := 0) hmade rfl hresult⟩

theorem tellsTruth_cloned :
    ∃ T, History Op.Answers Elsewhere (start cloneThesis backedUp) cloned T ∧
      Throughout (TellsTruth cloneThesis) cloned := by
  obtain ⟨T, h⟩ := history_cloned
  exact ⟨T, h, tellsTruth_run h (by decide +kernel)⟩

/-- The message that creates the disk. -/
def createThesis (_ : Fin 1) : Job :=
  .createDisk (some ⟨some "create_disk", some "ada", some "thesis", some "op-1"⟩)

/-- The disk has been deleted. -/
def deletedThesis : World where
  items key := if key = thesis then [{ newItem 0 with isDeleted := some true }] else []
  snapshots _ := []
  today := "2026-01-01"
  deeds := [.deleted thesis "2026-01-01"]

/-- The disk is there, so nothing is put. -/
def createdAgain : List (Occurrence (Fin 1)) :=
  [⟨some (0, ⟨.writeResult "op-1" "completed" none, .ok ()⟩), deletedThesis, deletedThesis⟩,
    ⟨some (0, ⟨.putIfAbsent thesis (newItem 0), .error .conditionalCheckFailed⟩), deletedThesis,
      deletedThesis⟩,
    ⟨some (0, ⟨.wallClock, (0 : ℤ)⟩), deletedThesis, deletedThesis⟩]

theorem history_createdAgain :
    ∃ T, History Op.Answers Elsewhere (start createThesis deletedThesis) createdAgain T := by
  have hstart : History Op.Answers Elsewhere (start createThesis deletedThesis) [] _ := .nil
  have hclock : Op.Answers .wallClock deletedThesis (0 : ℤ) deletedThesis := ⟨rfl, trivial⟩
  have hput : Op.Answers (.putIfAbsent thesis (newItem 0)) deletedThesis
      (.error .conditionalCheckFailed) deletedThesis :=
    ⟨Or.inr ⟨fun h => (by cases h), rfl⟩, fun _ => by decide⟩
  have hresult : Op.Answers (.writeResult "op-1" "completed" none) deletedThesis (.ok ())
      deletedThesis := ⟨rfl, trivial⟩
  have htimed := History.call (i := 0) hstart rfl hclock
  have hrefused := History.call (i := 0) htimed rfl hput
  exact ⟨_, History.call (i := 0) hrefused rfl hresult⟩

/-- A disk that was deleted is not there when its creation is completed. -/
theorem not_tellsTruth : ¬ ∀ (job : Fin 1 → Job) (w : World) (es : List (Occurrence (Fin 1)))
    (T : System (Fin 1) Op Op.Res Unit World),
    History Op.Answers Elsewhere (start job w) es T → Throughout (TellsTruth job) es := by
  intro h
  obtain ⟨T, hrun⟩ := history_createdAgain
  obtain ⟨key, hkey, htrue⟩ := (h _ _ _ T hrun).1 _ rfl "completed" rfl
  obtain rfl : thesis = key := Option.some.inj hkey
  obtain ⟨item, hitem, hlive⟩ := htrue.live rfl
  cases hitem
  exact hlive rfl

end CiInfra.GpuDev.SoftDeletions
