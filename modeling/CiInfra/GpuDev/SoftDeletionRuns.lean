import CiInfra.GpuDev.DeletionDates

/-!
# What a deletion purges

The item of a disk stays marked when its name is used again, so the synchronization puts the date
of the deletion on snapshots that did not exist when the disk was deleted. As long as no date is put
on a snapshot of a disk that has been used since its deletion, only what was requested before a
deletion is purged, and not before its date.
-/

namespace CiInfra.GpuDev.SoftDeletions

open Interaction Program
open SnapshotBookkeeping (DiskKey)

/-! ### What the state says of what has been done -/

/-- Every date and every snapshot has its deed: the items were deleted with their dates, the
snapshots requested for their disks, and tagged with their dates. -/
structure World.IsLogged (w : World) : Prop where
  items : ∀ key, ∀ item ∈ w.items key, ∀ date, item.deleteDate = some date →
    .deleted key date ∈ w.deeds
  disks : ∀ id, ∀ s ∈ w.snapshots id, ∀ key, s.disk = some key → .requested id key ∈ w.deeds
  tags : ∀ id, ∀ s ∈ w.snapshots id, ∀ date, s.deleteDate = some date → .tagged id date ∈ w.deeds

/-- What has been stays, and days go by. -/
structure Grows (w w' : World) : Prop where
  items : ∀ key, w.items key ⊆ w'.items key
  snapshots : ∀ id, w.snapshots id ⊆ w'.snapshots id
  deeds : ∃ new, w'.deeds = new ++ w.deeds
  today : w.today ≤ w'.today

variable {w w' : World}

theorem Grows.mem_deeds (h : Grows w w') {deed : Deed} (hdeed : deed ∈ w.deeds) :
    deed ∈ w'.deeds := by
  obtain ⟨new, hnew⟩ := h.deeds
  rw [hnew]
  exact List.mem_append_right _ hdeed

theorem Grows.refl (w : World) : Grows w w :=
  ⟨fun _ => List.Subset.refl _, fun _ => List.Subset.refl _, ⟨[], rfl⟩, String.le_refl _⟩

theorem subset_update {α β : Type} [DecidableEq α] (f : α → List β) (a : α) (new : List β) (b : α) :
    f b ⊆ Function.update f a (new ++ f a) b := by
  by_cases hb : b = a
  · subst hb
    rw [Function.update_self]
    exact List.subset_append_right _ _
  · rw [Function.update_of_ne hb]
    exact List.Subset.refl _

/-- What is new in a list that something was put in front of is what was put there. -/
theorem mem_update_append {α β : Type} [DecidableEq α] {f : α → List β} {a b : α} {x : β}
    (new : List β) (h : x ∈ Function.update f a (new ++ f a) b) : b = a ∧ x ∈ new ∨ x ∈ f b := by
  by_cases hb : b = a
  · subst hb
    rw [Function.update_self] at h
    rcases List.mem_append.mp h with hnew | hold
    · exact Or.inl ⟨rfl, hnew⟩
    · exact Or.inr hold
  · rw [Function.update_of_ne hb] at h
    exact Or.inr h

theorem grows_updateItem (w : World) (key : DiskKey) (f : Item → Item) :
    Grows w (w.updateItem key f) :=
  ⟨subset_update w.items key [_], fun _ => List.Subset.refl _, ⟨[], rfl⟩, String.le_refl _⟩

theorem grows_markDeleted (w : World) (key : DiskKey) (date markedAt : String) :
    Grows w (w.markDeleted key date markedAt) :=
  ⟨subset_update w.items key [_], fun _ => List.Subset.refl _, ⟨[_], rfl⟩, String.le_refl _⟩

theorem grows_request (w : World) (snapshot : Snapshot) : Grows w (w.request snapshot) :=
  ⟨fun _ => List.Subset.refl _, subset_update w.snapshots snapshot.id [snapshot], ⟨_, rfl⟩,
    String.le_refl _⟩

theorem grows_tag (w : World) (id date markedAt : String) : Grows w (w.tag id date markedAt) :=
  ⟨fun _ => List.Subset.refl _, subset_update w.snapshots id _, ⟨[_], rfl⟩, String.le_refl _⟩

theorem grows_purge (w : World) (id : String) : Grows w (w.purge id) :=
  ⟨fun _ => List.Subset.refl _, fun _ => List.Subset.refl _, ⟨[_], rfl⟩, String.le_refl _⟩

namespace World

theorem IsLogged.updateItem (h : w.IsLogged) {key : DiskKey} {f : Item → Item}
    (hf : ∀ date, (f ((w.items key).headD {})).deleteDate = some date →
      .deleted key date ∈ w.deeds) : (w.updateItem key f).IsLogged where
  items := by
    intro key' item hitem date hdate
    rcases mem_update_append [_] hitem with ⟨rfl, hnew⟩ | hold
    · obtain rfl := List.mem_singleton.mp hnew
      exact hf date hdate
    · exact h.items key' item hold date hdate
  disks := h.disks
  tags := h.tags

theorem IsLogged.date_headD (h : w.IsLogged) {key : DiskKey} {date : String}
    (hdate : ((w.items key).headD {}).deleteDate = some date) : .deleted key date ∈ w.deeds := by
  cases hitems : w.items key with
  | nil => simp [hitems] at hdate
  | cons item items =>
    rw [hitems] at hdate
    exact h.items key item (by rw [hitems]; exact List.mem_cons_self) date hdate

theorem IsLogged.markDeleted (h : w.IsLogged) (key : DiskKey) (date markedAt : String) :
    (w.markDeleted key date markedAt).IsLogged where
  items := by
    intro key' item hitem date' hdate
    rcases mem_update_append [_] hitem with ⟨rfl, hnew⟩ | hold
    · obtain rfl := List.mem_singleton.mp hnew
      cases hdate
      exact List.mem_cons_self
    · exact List.mem_cons_of_mem _ (h.items key' item hold date' hdate)
  disks := fun id s hs key hkey => List.mem_cons_of_mem _ (h.disks id s hs key hkey)
  tags := fun id s hs date hdate => List.mem_cons_of_mem _ (h.tags id s hs date hdate)

theorem IsLogged.request (h : w.IsLogged) {snapshot : Snapshot}
    (htag : snapshot.deleteDate = none) : (w.request snapshot).IsLogged where
  items := fun key item hitem date hdate =>
    List.mem_append_right _ (h.items key item hitem date hdate)
  disks := by
    intro id s hs key hkey
    rcases mem_update_append [snapshot] hs with ⟨rfl, hnew⟩ | hold
    · obtain rfl := List.mem_singleton.mp hnew
      exact List.mem_append_left _ (by simp [hkey])
    · exact List.mem_append_right _ (h.disks id s hold key hkey)
  tags := by
    intro id s hs date hdate
    rcases mem_update_append [snapshot] hs with ⟨rfl, hnew⟩ | hold
    · obtain rfl := List.mem_singleton.mp hnew
      cases htag.symm.trans hdate
    · exact List.mem_append_right _ (h.tags id s hold date hdate)

theorem IsLogged.tag (h : w.IsLogged) (id date markedAt : String) :
    (w.tag id date markedAt).IsLogged where
  items := fun key item hitem date hdate =>
    List.mem_cons_of_mem _ (h.items key item hitem date hdate)
  disks := by
    intro id' s hs key hkey
    refine List.mem_cons_of_mem _ ?_
    rcases mem_update_append _ hs with ⟨rfl, hnew⟩ | hold
    · obtain ⟨s', hs', rfl⟩ := Option.map_eq_some_iff.mp (Option.mem_toList.mp hnew)
      exact h.disks id' s' (List.mem_of_mem_head? hs') key hkey
    · exact h.disks id' s hold key hkey
  tags := by
    intro id' s hs date' hdate
    rcases mem_update_append _ hs with ⟨rfl, hnew⟩ | hold
    · obtain ⟨s', hs', rfl⟩ := Option.map_eq_some_iff.mp (Option.mem_toList.mp hnew)
      cases hdate
      exact List.mem_cons_self
    · exact List.mem_cons_of_mem _ (h.tags id' s hold date' hdate)

theorem IsLogged.purge (h : w.IsLogged) (id : String) : (w.purge id).IsLogged where
  items := fun key item hitem date hdate =>
    List.mem_cons_of_mem _ (h.items key item hitem date hdate)
  disks := fun id s hs key hkey => List.mem_cons_of_mem _ (h.disks id s hs key hkey)
  tags := fun id s hs date hdate => List.mem_cons_of_mem _ (h.tags id s hs date hdate)

end World

theorem Surroundings.grows (h : Surroundings w w') : Grows w w' := by
  cases h with
  | request snapshot => exact grows_request w snapshot
  | complete id snapshot =>
    exact ⟨fun _ => List.Subset.refl _, subset_update w.snapshots id [_], ⟨[], rfl⟩,
      String.le_refl _⟩
  | change key f => exact grows_updateItem w key f
  | pass day hday =>
    exact ⟨fun _ => List.Subset.refl _, fun _ => List.Subset.refl _, ⟨[], rfl⟩, hday⟩

theorem Surroundings.isLogged (h : Surroundings w w') (hw : w.IsLogged) : w'.IsLogged := by
  cases h with
  | request snapshot hnew htag => exact hw.request htag
  | complete id snapshot hid =>
    have hmem := List.mem_of_mem_head? hid
    refine ⟨hw.items, fun id' s hs key hkey => ?_, fun id' s hs date hdate => ?_⟩
    · rcases mem_update_append [_] hs with ⟨rfl, hnew⟩ | hold
      · obtain rfl := List.mem_singleton.mp hnew
        exact hw.disks id' snapshot hmem key hkey
      · exact hw.disks id' s hold key hkey
    · rcases mem_update_append [_] hs with ⟨rfl, hnew⟩ | hold
      · obtain rfl := List.mem_singleton.mp hnew
        exact hw.tags id' snapshot hmem date hdate
      · exact hw.tags id' s hold date hdate
  | change key f hdeleted hdate =>
    exact hw.updateItem fun date hd => hw.date_headD ((hdate _).symm.trans hd)
  | pass => exact ⟨hw.items, hw.disks, hw.tags⟩

/-- What a call can change. -/
theorem Op.Serves.cases {op : Op} {r : op.Res} (h : op.Serves w r w') :
    w' = w ∨
    (∃ key date markedAt, op = .markDeleted key date markedAt ∧
      w' = w.markDeleted key date markedAt) ∨
    (∃ key item, op = .putIfAbsent key item ∧ w' = w.putItem key item) ∨
    (∃ id date markedAt, op = .createTags id date markedAt ∧ w' = w.tag id date markedAt) ∨
    (∃ id, op = .deleteSnapshot id ∧ w' = w.purge id) ∨
    ∃ snapshot : Snapshot, snapshot.deleteDate = none ∧ w' = w.request snapshot := by
  cases op with
  | markDeleted key date markedAt =>
    obtain rfl | ⟨-, rfl⟩ := h
    · exact Or.inr (Or.inl ⟨key, date, markedAt, rfl, rfl⟩)
    · exact Or.inl rfl
  | putIfAbsent key item =>
    obtain ⟨-, rfl⟩ | ⟨-, rfl⟩ := h
    · exact Or.inr (Or.inr (Or.inl ⟨key, item, rfl, rfl⟩))
    · exact Or.inl rfl
  | createTags id date markedAt =>
    obtain rfl | ⟨-, rfl⟩ := h
    · exact Or.inr (Or.inr (Or.inr (Or.inl ⟨id, date, markedAt, rfl, rfl⟩)))
    · exact Or.inl rfl
  | deleteSnapshot id =>
    obtain rfl | ⟨-, rfl⟩ := h
    · exact Or.inr (Or.inr (Or.inr (Or.inr (Or.inl ⟨id, rfl, rfl⟩))))
    · exact Or.inl rfl
  | createSnapshot =>
    obtain ⟨snapshot, -, -, htag, rfl⟩ | ⟨-, rfl⟩ := h
    · exact Or.inr (Or.inr (Or.inr (Or.inr (Or.inr ⟨snapshot, htag, rfl⟩))))
    · exact Or.inl rfl
  | today | scanDeleted | describeOf | describeCompletedOf | describeTagged => exact Or.inl h.1
  | _ => exact Or.inl h

theorem Op.Serves.grows {op : Op} {r : op.Res} (h : op.Serves w r w') : Grows w w' := by
  obtain rfl | ⟨key, date, markedAt, -, rfl⟩ | ⟨key, item, -, rfl⟩ | ⟨id, date, markedAt, -, rfl⟩ |
    ⟨id, -, rfl⟩ | ⟨snapshot, -, rfl⟩ := h.cases
  · exact .refl _
  · exact grows_markDeleted ..
  · exact grows_updateItem ..
  · exact grows_tag ..
  · exact grows_purge ..
  · exact grows_request ..

theorem Op.Serves.isLogged {op : Op} {r : op.Res} {past : List Call} (h : op.Serves w r w')
    (hop : Justified past op) (hw : w.IsLogged) : w'.IsLogged := by
  obtain rfl | ⟨key, date, markedAt, -, rfl⟩ | ⟨key, item, rfl, rfl⟩ |
    ⟨id, date, markedAt, -, rfl⟩ | ⟨id, -, rfl⟩ | ⟨snapshot, htag, rfl⟩ := h.cases
  · exact hw
  · exact hw.markDeleted ..
  · refine hw.updateItem fun date hdate => ?_
    cases hop.symm.trans hdate
  · exact hw.tag ..
  · exact hw.purge ..
  · exact hw.request htag

/-- Only the tagging of a snapshot is a tagging. -/
theorem Op.Serves.tagged {op : Op} {r : op.Res} (h : op.Serves w r w') {id date : String}
    (htag : .tagged id date ∈ w'.deeds) :
    .tagged id date ∈ w.deeds ∨ ∃ markedAt, op = .createTags id date markedAt := by
  obtain rfl | ⟨key, date', markedAt, -, rfl⟩ | ⟨key, item, -, rfl⟩ |
    ⟨id', date', markedAt, rfl, rfl⟩ | ⟨id', -, rfl⟩ | ⟨snapshot, -, rfl⟩ := h.cases
  · exact Or.inl htag
  · exact Or.inl (by simpa [World.markDeleted] using htag)
  · exact Or.inl htag
  · rcases List.mem_cons.mp htag with heq | hold
    · cases heq
      exact Or.inr ⟨markedAt, rfl⟩
    · exact Or.inl hold
  · exact Or.inl (by simpa [World.purge] using htag)
  · exact Or.inl (by simpa [World.request] using htag)

theorem Surroundings.tagged (h : Surroundings w w') {id date : String}
    (htag : .tagged id date ∈ w'.deeds) : .tagged id date ∈ w.deeds := by
  cases h with
  | request snapshot => simpa [World.request] using htag
  | _ => exact htag

/-! ### What is shown is so -/

theorem mem_of_toOption {ε α : Type} {answer : Except ε (List α)} {a : α}
    (h : a ∈ answer.toOption.getD []) : ∃ shown, answer = .ok shown ∧ a ∈ shown := by
  cases answer with
  | error e => cases h
  | ok shown => exact ⟨shown, rfl, h⟩

theorem Op.Serves.deleted_of_shown {op : Op} {r : op.Res} (h : op.Serves w r w')
    (hw : w.IsLogged) {key : DiskKey} {date : String} (hshown : (key, date) ∈ op.showsDeleted r) :
    .deleted key date ∈ w'.deeds := by
  cases op with
  | scanDeleted =>
    obtain ⟨rfl, hlists⟩ := h
    obtain ⟨x, hx, hdate⟩ := List.mem_filterMap.mp hshown
    obtain ⟨shown, rfl, hx⟩ := mem_of_toOption hx
    obtain ⟨date', hdate', heq⟩ := Option.map_eq_some_iff.mp hdate
    cases heq
    exact hw.items x.1 x.2 (hlists shown rfl x hx).1 date hdate'
  | markDeleted key' date' markedAt =>
    have hmarked : (key, date) ∈ markedDate r key' date' := hshown
    unfold markedDate at hmarked
    split at hmarked
    · cases List.mem_singleton.mp hmarked
      obtain rfl | ⟨hr, -⟩ := h
      · exact List.mem_cons_self
      · cases r with
        | error => cases hshown
        | ok => exact absurd rfl hr
    · cases hmarked
  | _ => cases hshown

theorem Op.Serves.requested_of_listed {op : Op} {r : op.Res} (h : op.Serves w r w')
    (hw : w.IsLogged) {key : DiskKey} {id : String} (hlisted : id ∈ op.lists key r) :
    .requested id key ∈ w'.deeds ∧ ∃ s ∈ w'.snapshots id, s.disk = some key := by
  cases op with
  | describeOf key' =>
    obtain ⟨rfl, hlists⟩ := h
    have hids : id ∈ if key' = key then listedIds r else [] := hlisted
    split at hids
    · rename_i hkey
      obtain ⟨s, hs, rfl⟩ := List.mem_map.mp hids
      obtain ⟨shown, rfl, hs⟩ := mem_of_toOption hs
      obtain ⟨hversion, hdisk⟩ := hlists shown rfl s hs
      rw [hkey] at hdisk
      exact ⟨hw.disks s.id s hversion key hdisk, s, hversion, hdisk⟩
    · cases hids
  | _ => cases hlisted

theorem Op.Serves.tagged_of_shown {op : Op} {r : op.Res} (h : op.Serves w r w')
    (hw : w.IsLogged) {id date : String} (hshown : (id, date) ∈ op.showsTags r) :
    .tagged id date ∈ w'.deeds := by
  cases op with
  | describeTagged =>
    obtain ⟨rfl, hlists⟩ := h
    obtain ⟨s, hs, hdate⟩ := List.mem_filterMap.mp hshown
    obtain ⟨shown, rfl, hs⟩ := mem_of_toOption hs
    obtain ⟨date', hdate', heq⟩ := Option.map_eq_some_iff.mp hdate
    cases heq
    exact hw.tags s.id s (hlists shown rfl s hs).1 date hdate'
  | _ => cases hshown

theorem Op.Serves.day_le {op : Op} {r : op.Res} (h : op.Serves w r w') {day : String}
    (hday : day ∈ op.tellsDay r) : day ≤ w'.today := by
  cases op with
  | today =>
    obtain ⟨rfl, rfl⟩ := h
    cases hday
    exact String.le_refl _
  | _ => cases hday

/-! ### Runs -/

variable {ι : Type} [DecidableEq ι]

/-- Something that happens in a run. -/
abbrev Occurrence (ι : Type) := Happening ι Op Op.Res World

/-- When a date is put on a snapshot, its disk has not been used since its last deletion with that
date. -/
def Op.TagsInOrder : Op → World → Prop
  | .createTags id date _, w =>
    ∀ s ∈ w.snapshots id, ∀ key ∈ s.disk, isReused key date w.deeds = false
  | _, _ => True

def TagsInOrder (e : Occurrence ι) : Prop := ∀ c ∈ e.call, c.2.1.TagsInOrder e.before

/-- Every date was put on a snapshot that had been requested before a deletion with that date. -/
def World.TagsFollow (w : World) : Prop :=
  ∀ id date, .tagged id date ∈ w.deeds → RequestedBefore id (· = date) w.deeds

variable {job : ι → Job} {es : List (Occurrence ι)} {T : System ι Op Op.Res Unit World}

theorem Grows.trans {w w' w'' : World} (h : Grows w w') (h' : Grows w' w'') : Grows w w'' where
  items := fun key => List.Subset.trans (h.items key) (h'.items key)
  snapshots := fun id => List.Subset.trans (h.snapshots id) (h'.snapshots id)
  deeds := by
    obtain ⟨new, hnew⟩ := h.deeds
    obtain ⟨new', hnew'⟩ := h'.deeds
    exact ⟨new' ++ new, by rw [hnew', hnew, List.append_assoc]⟩
  today := String.le_trans h.today h'.today

theorem grows_happening (h : History Op.Serves Surroundings (start job w) es T) {e : Occurrence ι}
    (he : e ∈ es) : Grows e.before e.after := by
  cases hcall : e.call with
  | none => exact (h.changed he hcall).grows
  | some c => exact (h.served he hcall).grows

theorem grows_since (h : History Op.Serves Surroundings (start job w) es T) {d : Occurrence ι}
    (hd : d ∈ es) : Grows d.after T.state := by
  obtain ⟨later, earlier, rfl⟩ := List.append_of_mem hd
  exact h.holds_since (K := fun w => Grows d.after w) (Grows.refl _) fun e he hgrows =>
    hgrows.trans (grows_happening h (List.mem_append_left _ he))

theorem justified_next (h : History Op.Serves Surroundings (start job w) es T) {i : ι} {op : Op}
    {next : op.Res → Program Op Op.Res Unit} (hi : T.procs i = call op next) :
    Justified (es.filterMap (Happening.callOf i)) op := by
  have hrest := (job i).heeds.of_trace (h.trace i)
  rw [traceOf, List.reverse_reverse, List.append_nil, hi] at hrest
  exact hrest.1

theorem isLogged_run (hw : w.IsLogged)
    (h : History Op.Serves Surroundings (start job w) es T) : T.state.IsLogged := by
  induction h with
  | nil => exact hw
  | call h hi hr ih => exact hr.isLogged (justified_next h hi) ih
  | env _ hs ih => exact hs.isLogged ih

/-- What an earlier call of a program has shown is so. -/
theorem known_run {P : Call → Prop} {K : World → Prop} (hw : w.IsLogged)
    (h : History Op.Serves Surroundings (start job w) es T) {i : ι}
    (hknown : ∃ c ∈ es.filterMap (Happening.callOf i), P c)
    (hshown : ∀ c s s', s.IsLogged → c.1.Serves s c.2 s' → P c → K s')
    (hkeep : ∀ s s', Grows s s' → K s → K s') : K T.state := by
  obtain ⟨c, hc, hshows⟩ := hknown
  obtain ⟨d, hd, hcall⟩ := List.mem_filterMap.mp hc
  have hserved := h.served hd (Happening.callOf_eq_some.mp hcall)
  obtain ⟨later, earlier, rfl⟩ := List.append_of_mem hd
  obtain ⟨U, hU, hbefore⟩ := h.before
  have hlogged : d.before.IsLogged := hbefore ▸ isLogged_run hw hU
  exact hkeep _ _ (grows_since h hd) (hshown c _ _ hlogged hserved hshows)

/-- A date that is put on a snapshot in order is that of a later deletion of its disk. -/
theorem requestedBefore_next (hw : w.IsLogged)
    (h : History Op.Serves Surroundings (start job w) es T) {i : ι} {id date markedAt : String}
    {next : (Op.createTags id date markedAt).Res → Program Op Op.Res Unit}
    (hi : T.procs i = call (.createTags id date markedAt) next)
    (horder : (Op.createTags id date markedAt).TagsInOrder T.state) :
    RequestedBefore id (· = date) T.state.deeds := by
  obtain ⟨key, hdeleted, hlisted⟩ := justified_next h hi
  have hdeed : .deleted key date ∈ T.state.deeds :=
    known_run hw h hdeleted (K := fun w => .deleted key date ∈ w.deeds)
      (fun _ _ _ hlogged hserved hshown => hserved.deleted_of_shown hlogged hshown)
      fun _ _ hgrows hdeed => hgrows.mem_deeds hdeed
  obtain ⟨hrequested, s, hs, hdisk⟩ := known_run hw h hlisted
    (K := fun w => .requested id key ∈ w.deeds ∧ ∃ s ∈ w.snapshots id, s.disk = some key)
    (fun _ _ _ hlogged hserved hshown => hserved.requested_of_listed hlogged hshown)
    fun _ _ hgrows hK => ⟨hgrows.mem_deeds hK.1,
      hK.2.imp fun _ hs => ⟨hgrows.snapshots id hs.1, hs.2⟩⟩
  exact requestedBefore_of_not_isReused (horder s hs key hdisk) hdeed hrequested

theorem tagsFollow_run (hw : w.IsLogged) (htags : w.TagsFollow)
    (h : History Op.Serves Surroundings (start job w) es T) (horder : ∀ e ∈ es, TagsInOrder e) :
    T.state.TagsFollow := by
  induction h with
  | nil => exact htags
  | env _ hs ih =>
    obtain ⟨-, hpast⟩ := List.forall_mem_cons.mp horder
    intro id date htag
    obtain ⟨new, hnew⟩ := hs.grows.deeds
    exact hnew ▸ (ih hpast id date (hs.tagged htag)).append new
  | call h hi hr ih =>
    obtain ⟨hlast, hpast⟩ := List.forall_mem_cons.mp horder
    intro id date htag
    obtain ⟨new, hnew⟩ := hr.grows.deeds
    refine hnew ▸ RequestedBefore.append ?_ new
    obtain hold | ⟨markedAt, rfl⟩ := hr.tagged htag
    · exact ih hpast id date hold
    · exact requestedBefore_next hw h hi (hlast _ rfl)

/-- A snapshot that is about to be deleted was requested before a deletion whose date has come. -/
theorem requestedBefore_purge (hw : w.IsLogged)
    (h : History Op.Serves Surroundings (start job w) es T) (htags : T.state.TagsFollow) {i : ι}
    {id : String} {next : (Op.deleteSnapshot id).Res → Program Op Op.Res Unit}
    (hi : T.procs i = call (.deleteSnapshot id) next) :
    RequestedBefore id (· ≤ T.state.today) T.state.deeds := by
  obtain ⟨date, htagged, c, hc, day, hday, hle⟩ := justified_next h hi
  have htag : .tagged id date ∈ T.state.deeds :=
    known_run hw h htagged (K := fun w => .tagged id date ∈ w.deeds)
      (fun _ _ _ hlogged hserved hshown => hserved.tagged_of_shown hlogged hshown)
      fun _ _ hgrows hdeed => hgrows.mem_deeds hdeed
  have hcome : date ≤ T.state.today :=
    known_run hw h ⟨c, hc, day, hday, hle⟩ (K := fun w => date ≤ w.today)
      (P := fun c => ∃ day ∈ c.1.tellsDay c.2, date ≤ day)
      (fun _ _ _ _ hserved hshown => by
        obtain ⟨day, hday, hle⟩ := hshown
        exact String.le_trans hle (hserved.day_le hday))
      fun _ _ hgrows hle => String.le_trans hle hgrows.today
  exact (htags id date htag).mono fun date' hdate => hdate ▸ hcome

/-- The snapshot that is deleted. -/
def Op.purges : Op → Option String
  | .deleteSnapshot id => some id
  | _ => none

/-- The snapshot that gets a date, and the date. -/
def Op.dates : Op → Option (String × String)
  | .createTags id date _ => some (id, date)
  | _ => none

/-- A snapshot is deleted only if it was requested before a deletion of its disk whose date has
come, and gets a date only if it was requested before a deletion with that date. -/
def PurgesWhatExisted (e : Occurrence ι) : Prop :=
  ∀ c ∈ e.call,
    (∀ id ∈ c.2.1.purges, RequestedBefore id (· ≤ e.before.today) e.before.deeds) ∧
      ∀ x ∈ c.2.1.dates, RequestedBefore x.1 (· = x.2) e.before.deeds

/-- As long as no date is put on a snapshot of a disk that has been used since its deletion, only
what existed at a deletion is purged. -/
theorem purges_whatExisted {job : ι → Job} {w : World} {es : List (Occurrence ι)}
    {T : System ι Op Op.Res Unit World} (hw : w.IsLogged) (htags : w.TagsFollow)
    (h : History Op.Serves Surroundings (start job w) es T) (horder : ∀ e ∈ es, TagsInOrder e) :
    ∀ e ∈ es, PurgesWhatExisted e := by
  induction h with
  | nil => simp
  | env _ _ ih =>
    obtain ⟨-, hpast⟩ := List.forall_mem_cons.mp horder
    exact List.forall_mem_cons.mpr ⟨fun c hc => (by cases hc), ih hpast⟩
  | @call past T i op next r s' h hi hr ih =>
    obtain ⟨hlast, hpast⟩ := List.forall_mem_cons.mp horder
    refine List.forall_mem_cons.mpr ⟨fun c hc => ?_, ih hpast⟩
    cases hc
    cases op with
    | deleteSnapshot id =>
      refine ⟨fun id' hid => ?_, fun x hx => by cases hx⟩
      cases hid
      exact requestedBefore_purge hw h (tagsFollow_run hw htags h hpast) hi
    | createTags id date markedAt =>
      refine ⟨fun id' hid => (by cases hid), fun x hx => ?_⟩
      cases hx
      exact requestedBefore_next hw h hi (hlast _ rfl)
    | _ => exact ⟨fun id hid => (by cases hid), fun x hx => by cases hx⟩

/-! ### A name that is used again -/

instance RequestedBefore.decidable (id : String) (dates : String → Prop) [DecidablePred dates] :
    DecidablePred (RequestedBefore id dates)
  | [] => inferInstanceAs (Decidable False)
  | .deleted key date :: earlier =>
    have : Decidable (RequestedBefore id dates earlier) :=
      RequestedBefore.decidable id dates earlier
    inferInstanceAs (Decidable
      (dates date ∧ .requested id key ∈ earlier ∨ RequestedBefore id dates earlier))
  | .requested _ _ :: earlier | .tagged _ _ :: earlier | .purged _ :: earlier =>
    RequestedBefore.decidable id dates earlier

instance : (op : Op) → (w : World) → Decidable (op.TagsInOrder w)
  | .createTags id date _, w => inferInstanceAs (Decidable
      (∀ s ∈ w.snapshots id, ∀ key ∈ s.disk, isReused key date w.deeds = false))
  | .wallClock, _ | .today, _ | .markDeleted _ _ _, _ | .putIfAbsent _ _, _ | .getItem _, _
  | .scanDeleted, _ | .describeOf _, _ | .describeCompletedOf _, _ | .describeSnapshot _, _
  | .describeTagged, _ | .deleteSnapshot _, _ | .describeVolumes _, _ | .createSnapshot _ _, _
  | .waitCompleted _, _ | .writeResult _ _ _, _ => inferInstanceAs (Decidable True)

instance (e : Occurrence ι) : Decidable (TagsInOrder e) :=
  inferInstanceAs (Decidable (∀ c ∈ e.call, c.2.1.TagsInOrder e.before))

def thesis : DiskKey := ("ada", "thesis")

/-- The current state of a snapshot, if it is selected. -/
def World.list (w : World) (ids : List String) (selects : Snapshot → Bool) : List Snapshot :=
  ids.filterMap fun id => (w.snapshots id).head?.filter fun s => s.id == id && selects s

theorem World.lists_list (w : World) (ids : List String) {selects : Snapshot → Bool}
    {p : Snapshot → Prop} (hp : ∀ s, selects s = true → p s) :
    w.Lists p (.ok (w.list ids selects)) := by
  intro shown hshown s hs
  cases hshown
  obtain ⟨id, -, hs⟩ := List.mem_filterMap.mp hs
  obtain ⟨hfound, hselected⟩ := Option.filter_eq_some_iff.mp hs
  simp only [Bool.and_eq_true, beq_iff_eq] at hselected
  obtain ⟨rfl, hselected⟩ := hselected
  exact ⟨List.mem_of_mem_head? hfound, hp s hselected⟩

/-- Answers without faults, for one disk and two snapshots. -/
def serve : (op : Op) → World → op.Res × World
  | .wallClock, w => ((0 : ℤ), w)
  | .today, w => (w.today, w)
  | .markDeleted key date markedAt, w => (.ok (), w.markDeleted key date markedAt)
  | .putIfAbsent key item, w =>
    if (w.items key).isEmpty then (.ok (), w.putItem key item)
    else (.error .conditionalCheckFailed, w)
  | .getItem key, w => (.ok (w.items key).head?, w)
  | .scanDeleted, w =>
    (.ok (((w.items thesis).head?.filter fun item => item.isDeleted == some true).map
      (thesis, ·)).toList, w)
  | .describeOf key, w => (.ok (w.list ["snap-1", "snap-2"] fun s => s.disk == some key), w)
  | .describeCompletedOf key, w =>
    (.ok (w.list ["snap-1", "snap-2"] fun s => s.disk == some key && s.completed), w)
  | .describeSnapshot id, w => (.ok (w.list [id] fun _ => true), w)
  | .describeTagged, w => (.ok (w.list ["snap-1", "snap-2"] fun s => s.deleteDate.isSome), w)
  | .createTags id date markedAt, w => (.ok (), w.tag id date markedAt)
  | .deleteSnapshot id, w => (.ok (), w.purge id)
  | .describeVolumes _, w => (.ok [], w)
  | .createSnapshot _ _, w => (.error "InvalidVolume.NotFound", w)
  | .waitCompleted _, w => (.ok (), w)
  | .writeResult _ _ _, w => (.ok (), w)

theorem serves_serve (op : Op) (w : World) : op.Serves w (serve op w).1 (serve op w).2 := by
  cases op with
  | today => exact ⟨rfl, rfl⟩
  | markDeleted | createTags | deleteSnapshot => exact Or.inl rfl
  | putIfAbsent key item =>
    dsimp only [serve]
    split
    · exact Or.inl ⟨by simpa using ‹(w.items key).isEmpty = true›, rfl⟩
    · exact Or.inr ⟨fun h => (by cases h), rfl⟩
  | scanDeleted =>
    refine ⟨rfl, fun shown hshown x hx => ?_⟩
    cases hshown
    obtain ⟨item, hitem, rfl⟩ := Option.map_eq_some_iff.mp (Option.mem_toList.mp hx)
    obtain ⟨hfound, hdeleted⟩ := Option.filter_eq_some_iff.mp hitem
    exact ⟨List.mem_of_mem_head? hfound, by simpa using hdeleted⟩
  | describeOf | describeCompletedOf | describeTagged =>
    exact ⟨rfl, w.lists_list _ (by simp)⟩
  | createSnapshot => exact Or.inr ⟨fun id h => (by cases h), rfl⟩
  | _ => exact rfl

/-- The disk has one snapshot when it is deleted. -/
def oneSnapshot : World where
  items key := if key = thesis then [newItem 0] else []
  snapshots id := if id = "snap-1" then [{ id := "snap-1", disk := some thesis }] else []
  today := "2026-01-01"
  deeds := [.requested "snap-1" thesis]

theorem isLogged_oneSnapshot : oneSnapshot.IsLogged where
  items := by
    intro key item hitem date hdate
    by_cases hkey : key = thesis
    · simp only [oneSnapshot, hkey, if_true, List.mem_singleton] at hitem
      subst hitem
      cases hdate
    · simp [oneSnapshot, hkey] at hitem
  disks := by
    intro id s hs key hkey
    by_cases hid : id = "snap-1"
    · simp only [oneSnapshot, hid, if_true, List.mem_singleton] at hs
      subst hs hid
      cases hkey
      exact List.mem_cons_self
    · simp [oneSnapshot, hid] at hs
  tags := by
    intro id s hs date hdate
    by_cases hid : id = "snap-1"
    · simp only [oneSnapshot, hid, if_true, List.mem_singleton] at hs
      subst hs
      cases hdate
    · simp [oneSnapshot, hid] at hs

theorem tagsFollow_oneSnapshot : oneSnapshot.TagsFollow := by
  intro id date htag
  simp [oneSnapshot] at htag

/-- Four programs can be given by numerals, with the zero that `Fin` takes for them. -/
instance neZero_four : @NeZero Nat Zero.ofOfNat0 4 := ⟨by decide⟩

/-- The disk is deleted and created again, synchronized and cleaned up. -/
def deletedAndCreated : Fin 4 → Job
  | 0 =>
    .deleteDisk (some ⟨some "delete_disk", some "ada", some "thesis", some "2026-01-31", none⟩)
  | 1 => .createDisk (some ⟨some "create_disk", some "ada", some "thesis", none⟩)
  | 2 => .sync
  | 3 => .cleanUp

/-- A reservation that uses the name again ends with a snapshot. -/
def World.requestAgain (w : World) : World :=
  if (w.snapshots "snap-2").isEmpty then w.request { id := "snap-2", disk := some thesis } else w

/-- The date of the deletion comes. -/
def World.passMonth (w : World) : World :=
  if w.today ≤ "2026-01-31" then { w with today := "2026-01-31" } else w

theorem surroundings_refl (w : World) : Surroundings w w := .pass w.today (String.le_refl _)

theorem surroundings_requestAgain (w : World) : Surroundings w w.requestAgain := by
  unfold World.requestAgain
  split
  · rename_i hempty
    exact .request _ (by simpa using hempty) rfl
  · exact surroundings_refl w

theorem surroundings_passMonth (w : World) : Surroundings w w.passMonth := by
  unfold World.passMonth
  split
  · rename_i hday
    exact .pass _ hday
  · exact surroundings_refl w

def played (schedule : List (Turn (Fin 4) World)) :
    List (Occurrence (Fin 4)) × System (Fin 4) Op Op.Res Unit World :=
  play serve (start deletedAndCreated oneSnapshot) schedule

theorem history_played {schedule : List (Turn (Fin 4) World)}
    (hschedule : ∀ change, .env change ∈ schedule →
      change = World.requestAgain ∨ change = World.passMonth) :
    History Op.Serves Surroundings (start deletedAndCreated oneSnapshot) (played schedule).1
      (played schedule).2 := by
  refine .of_play serves_serve _ _ fun change hchange w => ?_
  rcases hschedule change hchange with rfl | rfl
  · exact surroundings_requestAgain w
  · exact surroundings_passMonth w

/-- The disk is deleted, and cleaned up when its date has come. -/
def deleted : List (Turn (Fin 4) World) :=
  List.replicate 4 (.call 0) ++ [.env World.passMonth] ++ List.replicate 3 (.call 3)

theorem purges_whatExisted_deleted :
    .purged "snap-1" ∈ (played deleted).2.state.deeds ∧
      ∀ e ∈ (played deleted).1, PurgesWhatExisted e :=
  ⟨by decide +kernel, purges_whatExisted isLogged_oneSnapshot tagsFollow_oneSnapshot
    (history_played (by simp [deleted])) (by decide +kernel)⟩

/-- The name is used again before a synchronization. -/
def usedAgain : List (Turn (Fin 4) World) :=
  List.replicate 4 (.call 0) ++ List.replicate 2 (.call 1) ++ [.env World.requestAgain] ++
    List.replicate 4 (.call 2) ++ [.env World.passMonth] ++ List.replicate 4 (.call 3)

/-- The snapshot of the second use is purged by the deletion before it. -/
theorem not_purges_whatExisted :
    ¬ ∀ (job : Fin 4 → Job) (w : World) (es : List (Occurrence (Fin 4)))
      (T : System (Fin 4) Op Op.Res Unit World), w.IsLogged → w.TagsFollow →
      History Op.Serves Surroundings (start job w) es T →
      ∀ e ∈ es, ∀ c ∈ e.call, ∀ id ∈ c.2.1.purges,
        RequestedBefore id (· ≤ e.before.today) e.before.deeds := by
  intro h
  have hrun : History Op.Serves Surroundings (start deletedAndCreated oneSnapshot)
      (played usedAgain).1 (played usedAgain).2 := history_played (by simp [usedAgain])
  have hall := h deletedAndCreated oneSnapshot _ _ isLogged_oneSnapshot tagsFollow_oneSnapshot hrun
  have hpurged : ¬ ∀ e ∈ (played usedAgain).1, ∀ c ∈ e.call, ∀ id ∈ c.2.1.purges,
      RequestedBefore id (· ≤ e.before.today) e.before.deeds := by decide +kernel
  exact hpurged hall

end CiInfra.GpuDev.SoftDeletions
