import CiInfra.GpuDev.EndedReservations

/-!
# Starts of queued reservations

The sweep reads the record of a queued reservation once more before it starts it, and then writes
the record without a condition. Another sweep, or a message that is delivered again, may have
started the reservation in between. A reservation is started once for each time that it is queued
if whoever starts it has found it waiting, and nobody has started it since.
-/

namespace CiInfra.GpuDev

open Interaction Fallible

/-- The first status that `allocate_gpu_resources` writes of its own. -/
def Op.begins (r : String) : Op → Bool
  | updateItem id (.set fields) => id = r &&
    match Attributes.ofList fields "status", Attributes.ofList fields "current_detailed_status" with
    | some (.text "preparing"), some (.text detailed) =>
      startsWith detailed "Fetching SSH keys for GitHub user "
    | _, _ => false
  | _ => false

section Queueing

variable {ι : Type}

/-- The reservation is begun: an invocation enters `allocate_gpu_resources` with it. -/
def begins (r : String) (e : Occurrence ι) : Bool :=
  match e.call with
  | some (_, ⟨op, _⟩) => op.begins r
  | none => false

/-- The reservation is queued. -/
def queues (r : String) (e : Occurrence ι) : Bool :=
  match e.call with
  | some (_, ⟨.updateItem id u, _⟩) => id = r &&
    match u.status with
    | some (.text s) => s = "queued"
    | _ => false
  | _ => false

/-- Each time that the reservation is queued it is begun at most once. -/
def BegunOnce (r : String) (es : List (Occurrence ι)) : Prop :=
  ∀ later e between d earlier, es = later ++ e :: (between ++ d :: earlier) →
    begins r e = true → begins r d = true → (∃ q ∈ earlier, queues r q = true) →
      ∃ q ∈ between, queues r q = true

end Queueing

/-- The second at which a reservation was created, where `instant` gives the time that a text
stands for. -/
def createdAt (instant : String → Option ℚ) (reservation : Attributes) : Option ℤ :=
  match reservation "created_at" with
  | some (.number t) => some t.floor
  | some (.text s) => (instant s).map (·.floor)
  | _ => none

/-- The reservation was created at most thirty seconds ago. -/
def isRecent (instant : String → Option ℚ) (now : ℚ) (reservation : Attributes) : Bool :=
  (createdAt instant reservation).any fun created => now.floor - created ≤ 30

/-- The time of creation is a text. -/
def hasTextDate (reservation : Attributes) : Bool :=
  match reservation "created_at" with
  | some (.text _) => true
  | _ => false

/-- The invocation is a sweep. -/
def Invocation.isSweep : Invocation → Bool
  | sweep => true
  | _ => false

theorem Invocation.program_of_isSweep {invocation : Invocation} {cfg : Settings}
    (h : invocation.isSweep = true) :
    invocation.program cfg = toItsEnd (processScheduledQueueManagement cfg) := by
  cases invocation with
  | sweep => rfl
  | _ => cases h

section Sweeps

variable {ι : Type} [DecidableEq ι]

/-- A sweep begins a reservation only if it was shown it as one that is not recent. -/
def LeavesRecent (instant : String → Option ℚ) (inv : ι → Invocation) (r : String)
    (es : List (Occurrence ι)) : Prop :=
  ∀ later e earlier i (op : Op) (res : op.Res), es = later ++ e :: earlier →
    e.call = some (i, ⟨op, res⟩) → (inv i).isSweep = true → op.begins r = true →
      ∃ (now : ℚ) (items : List Attributes) (rest : List (Program.Event Op Op.Res)),
        traceOf i earlier = ⟨.epoch, now⟩ :: ⟨.find (.status "queued"), .ok items⟩ :: rest ∧
        ∃ reservation ∈ items, reservation.key = r ∧ isRecent instant now reservation = false

/-- The times that an invocation has read. -/
def timesRead (i : ι) (past : List (Occurrence ι)) : List ℚ :=
  (traceOf i past).filterMap fun
    | ⟨.epoch, now⟩ => some now
    | _ => none

/-- The queued reservations that a sweep is shown. -/
def queueShown (inv : ι → Invocation) : ι × Program.Event Op Op.Res → List Attributes
  | (i, ⟨.find (.status "queued"), .ok items⟩) => if (inv i).isSweep then items else []
  | _ => []

/-- What a sweep is shown of a recent reservation does not have a text as its time of creation. -/
def ShowsDates (instant : String → Option ℚ) (inv : ι → Invocation) (r : String)
    (past : List (Occurrence ι)) (e : Occurrence ι) : Prop :=
  ∀ c ∈ e.call, ∀ reservation ∈ queueShown inv c, reservation.key = r →
    hasTextDate reservation = true →
      ∀ now ∈ timesRead c.1 past, isRecent instant now reservation = false

instance ShowsDates.decidable (instant : String → Option ℚ) (inv : ι → Invocation) (r : String)
    (past : List (Occurrence ι)) (e : Occurrence ι) : Decidable (ShowsDates instant inv r past e) :=
  inferInstanceAs (Decidable (∀ c ∈ e.call, ∀ reservation ∈ queueShown inv c,
    reservation.key = r → hasTextDate reservation = true →
      ∀ now ∈ timesRead c.1 past, isRecent instant now reservation = false))

end Sweeps

/-- The reservation waits: it has no record, or one that is pending, queued or without a
status. -/
def World.isWaiting (w : World) (r : String) : Bool :=
  match w.table.status r with
  | none => true
  | some (.text s) => ["pending", "queued"].contains s
  | some _ => false

section Windows

variable {ι : Type} [DecidableEq ι]

/-- The invocation makes a call while the reservation waits. -/
def findsWaiting (r : String) (i : ι) (e : Occurrence ι) : Bool :=
  (e.callOf i).isSome && e.before.isWaiting r

/-- The reservation is made to wait again. -/
def restores (r : String) (e : Occurrence ι) : Bool :=
  !e.before.isWaiting r && e.after.isWaiting r

/-- Who begins the reservation has found it waiting, nobody has begun it since, and the status
goes through; nothing but being queued makes the reservation wait again. -/
structure BeginsInTime (r : String) (past : List (Occurrence ι)) (e : Occurrence ι) : Prop where
  goesThrough : ∀ c ∈ e.call, c.2.1.begins r = true → c.2.1.wentThrough c.2.2 = true
  found : ∀ c ∈ e.call, c.2.1.begins r = true →
    LookedSince (fun _ d => findsWaiting r c.1 d = true) (fun d => begins r d = true) past
  restored : restores r e = true → queues r e = true

instance BeginsInTime.decidable (r : String) (past : List (Occurrence ι)) (e : Occurrence ι) :
    Decidable (BeginsInTime r past e) :=
  decidable_of_iff ((∀ c ∈ e.call, c.2.1.begins r = true → c.2.1.wentThrough c.2.2 = true) ∧
    (∀ c ∈ e.call, c.2.1.begins r = true →
      LookedSince (fun _ d => findsWaiting r c.1 d = true) (fun d => begins r d = true) past) ∧
    (restores r e = true → queues r e = true))
    ⟨fun h => ⟨h.1, h.2.1, h.2.2⟩, fun h => ⟨h.goesThrough, h.found, h.restored⟩⟩

end Windows

/-! ### Beginning -/

theorem startsWith_append (start rest : String) : startsWith (start ++ rest) start = true := by
  rw [startsWith, String.toList_append, List.isPrefixOf_iff_prefix]
  exact List.prefix_append _ _

/-- The first status of an allocation is that by which it begins. -/
theorem Op.begins_statusFields (r user : String) (v : Value) :
    (Op.updateItem r (.set (("last_updated", v) :: statusFields "preparing"
      ("Fetching SSH keys for GitHub user " ++ user) ""))).begins r = true := by
  have hne : "Fetching SSH keys for GitHub user " ++ user ≠ "" := by simp
  simp [begins, statusFields, hne, Attributes.ofList, List.lookup_cons, startsWith_append]

theorem Op.begins_eq {op : Op} {r : String} (h : op.begins r = true) :
    ∃ u, op = updateItem r u ∧ u.status = some (.text "preparing") := by
  unfold begins at h
  split at h
  · rw [Bool.and_eq_true, decide_eq_true_eq] at h
    obtain ⟨rfl, h⟩ := h
    split at h
    · exact ⟨_, rfl, ‹_›⟩
    · cases h
  · cases h

/-- A reservation that has been begun does not wait. -/
theorem Op.not_isWaiting_of_begins {op : Op} {w w' : World} {r : String} (h : op.begins r = true)
    (heffect : op.effect w = some w') : w'.isWaiting r = false := by
  obtain ⟨u, rfl, hstatus⟩ := begins_eq h
  obtain ⟨t', ht, rfl⟩ := World.withTable_eq_some heffect
  obtain ⟨item, hitem, rfl⟩ := Table.update_eq_some ht
  have hitemStatus := Update.apply_writes hitem hstatus
  simp [World.isWaiting, Table.status, hitemStatus]

/-- A call that writes the record of a reservation or changes nothing. -/
def Op.IsOfRecord (r : String) (op : Op) : Prop := op.IsQuiet = true ∨ ∃ u, op = updateItem r u

instance {r : String} : Covers r (Op.IsOfRecord r) where
  quiet _ h := Or.inl h
  update u _ := Or.inr ⟨u, rfl⟩

/-- The reservation has been begun by one of these calls. -/
def HasBegun (r : String) (past : List (Program.Event Op Op.Res)) : Prop :=
  ∃ c ∈ past, c.1.begins r = true

theorem HasBegun.cons {r : String} {past : List (Program.Event Op Op.Res)} (h : HasBegun r past)
    (c : Program.Event Op Op.Res) : HasBegun r (c :: past) := by
  obtain ⟨d, hd, hbegins⟩ := h
  exact ⟨d, List.mem_cons_of_mem _ hd, hbegins⟩

/-- What is done of an allocation: nothing but the record is changed before it has begun. -/
abbrev BeginsFirst (r : String) (past : List (Program.Event Op Op.Res)) (op : Op) : Prop :=
  op.IsOfRecord r ∨ HasBegun r past

section First

variable {r : String} {α : Type} {p : Lambda α} {past : List (Program.Event Op Op.Res)}

theorem heeds_ofRecord (h : p.Issues (Op.IsOfRecord r)) :
    p.Heeds (BeginsFirst r) (fun _ _ => True) (fun _ _ => True) past :=
  h.heeds (K := fun _ => True) (fun _ _ _ hop => Or.inl hop) (fun _ _ _ _ _ => trivial) trivial

theorem heeds_hasBegun (h : p.Issues fun _ => True) (hbegun : HasBegun r past) :
    p.Heeds (BeginsFirst r) (fun past _ => HasBegun r past) (fun past _ => HasBegun r past) past :=
  h.heeds (K := HasBegun r) (fun _ _ hK _ => Or.inr hK) (fun _ _ _ hK _ => hK.cons _) hbegun

/-- Once its first status is written an allocation has begun. -/
theorem heeds_firstStatus (hr : r ≠ "") (user : String) :
    (updateReservationStatus r "preparing" ("Fetching SSH keys for GitHub user " ++ user)).Heeds
      (BeginsFirst r) (fun past _ => HasBegun r past) (fun _ _ => True) past := by
  have hfields : ∀ past : List (Program.Event Op Op.Res), (updateReservationFields r
      (statusFields "preparing" ("Fetching SSH keys for GitHub user " ++ user) "")).Heeds
        (BeginsFirst r) (fun past _ => HasBegun r past) (fun past _ => HasBegun r past) past := by
    intro past
    have hwrite : (decide (r ≠ "") && !(statusFields "preparing"
        ("Fetching SSH keys for GitHub user " ++ user) "").isEmpty) = true := by
      simp [hr, statusFields]
    unfold updateReservationFields
    rw [hwrite, whenever, if_pos rfl]
    refine Heeds.logged (Heeds.bind (Q := fun _ _ => True) ?_ fun past now _ => ?_)
    · exact heeds_request (Or.inl (Or.inl rfl)) (fun _ _ _ => trivial) fun _ _ h => by cases h
    · have hbegun : ∀ res, HasBegun r (⟨.updateItem r (.set (("last_updated", .number now.floor) ::
          statusFields "preparing" ("Fetching SSH keys for GitHub user " ++ user) "")), res⟩ ::
            past) := fun res => ⟨_, List.mem_cons_self, Op.begins_statusFields r user _⟩
      exact heeds_request (Or.inl (Or.inr ⟨_, rfl⟩)) (fun res _ _ => hbegun res)
        fun res _ _ => hbegun res
  refine Heeds.logged (Heeds.bind (Q := fun _ _ => True) ?_ fun past _ _ =>
    (hfields past).bind fun past _ hbegun => ?_)
  · exact heeds_request (Or.inl (Or.inl rfl)) (fun _ _ _ => trivial) fun _ _ h => by cases h
  · exact heeds_hasBegun (Issues.whenever _ (Issues.logged
      (Issues.mono (issues_appendStatusHistory (P := Op.IsOfRecord r) _ _) fun _ _ => trivial)))
      hbegun

end First

/-! ### What a sweep is shown -/

/-- The sweep has read the time and then the queue. -/
def Swept (now : ℚ) (items : List Attributes) (past : List (Program.Event Op Op.Res)) : Prop :=
  ∃ rest, past.reverse = ⟨.epoch, now⟩ :: ⟨.find (.status "queued"), .ok items⟩ :: rest

theorem Swept.cons {now : ℚ} {items : List Attributes} {past : List (Program.Event Op Op.Res)}
    (h : Swept now items past) (c : Program.Event Op Op.Res) : Swept now items (c :: past) := by
  obtain ⟨rest, hrest⟩ := h
  exact ⟨rest ++ [c], by rw [List.reverse_cons, hrest]; rfl⟩

/-- The call begins only a reservation that is among these. -/
def Op.BeginsAmong (items : List Attributes) (op : Op) : Prop :=
  ∀ r, op.begins r = true → ∃ item ∈ items, item.key = r

theorem beginsAmong_of_none {items : List Attributes} {op : Op} (h : ∀ r, op.begins r = false) :
    op.BeginsAmong items :=
  fun r hr => by simp [h r] at hr

instance {items : List Attributes} : AllowsQuiet (Op.BeginsAmong items) where
  quiet op hop := beginsAmong_of_none fun r => by cases op <;> first | rfl | cases hop

theorem beginsAmong_updateItem {items : List Attributes} {item : Attributes} (h : item ∈ items)
    (u : Update) : Op.BeginsAmong items (.updateItem item.key u) := by
  intro r hr
  obtain ⟨u', heq, -⟩ := Op.begins_eq hr
  cases heq
  exact ⟨item, h, rfl⟩

theorem connects_beginsAmong {items : List Attributes} {item : Attributes} (h : item ∈ items) :
    Connects item.key (Op.BeginsAmong items) where
  update u _ := beginsAmong_updateItem h u
  connection u _ _ := beginsAmong_updateItem h u
  cache _ _ _ := beginsAmong_of_none fun _ => rfl
  deletePod _ := beginsAmong_of_none fun _ => rfl
  createVolume _ _ := beginsAmong_of_none fun _ => rfl
  createPod _ := beginsAmong_of_none fun _ => rfl

/-- What a sweep does with the reservations that are old enough begins none but these. -/
theorem issues_sweep (cfg : Settings) (old : List Attributes) : Issues (Op.BeginsAmong old) (do
    let _ ← orElseGive (find (.status "active")) []
    let sorted ← sortQueued old
    sweepLoop cfg 1 none sorted : Lambda Unit) := by
  refine Meets.issues (Q := fun _ => True) (E := fun _ => True) ?_
  refine (Issues.orElseGive (issues_quiet rfl) _).meets.bind fun _ _ =>
    (meets_sortQueued _).bind fun sorted hsorted =>
      meets_sweepLoop _ _ fun reservation hreservation _ _ => ?_
  have := connects_beginsAmong (hsorted _ hreservation)
  exact meets_processQueued (fun _ _ => (issues_allocateGpuResources _ _ _).meets) _ _

/-- A sweep begins a reservation that the queue showed to be old enough. -/
theorem heeds_processScheduledQueueManagement (cfg : Settings) (r : String) :
    (processScheduledQueueManagement cfg).Heeds (fun past op => op.begins r = true →
      ∃ now items, Swept now items past ∧
        ∃ reservation ∈ items, reservation.key = r ∧ isOldEnough now.floor reservation = true)
      (fun _ _ => True) (fun _ _ => True) [] := by
  refine Heeds.bind (Q := fun past now => past = [⟨.epoch, now⟩])
    (heeds_request (fun h => by cases h) (fun now a ha => ?_) fun _ _ h => by cases h)
    fun past now hpast => ?_
  · obtain rfl : now = a := Except.ok.inj ha
    rfl
  subst hpast
  refine Heeds.bind (Q := fun past queued => Swept now queued past ∨ queued = [])
    (Heeds.orElseGive (E := fun _ _ => True)
      (heeds_request (fun h => by cases h) (fun res items hitems => ?_) fun _ _ _ => trivial)
      fun _ _ _ => .inr rfl) fun past queued hqueued => ?_
  · obtain rfl : res = .ok items := hitems
    exact .inl ⟨[], rfl⟩
  dsimp only
  split
  · exact heeds_pure trivial
  · rename_i hold
    have hswept : Swept now queued past := by
      refine hqueued.resolve_right ?_
      rintro rfl
      exact hold rfl
    refine ((issues_sweep cfg _).heeds (K := Swept now queued) (fun past op hpast hop hbegins => ?_)
      (fun past op res hpast _ => hpast.cons _) hswept).mono (fun _ _ _ => trivial)
      fun _ _ _ => trivial
    obtain ⟨reservation, hreservation, hkey⟩ := hop r hbegins
    obtain ⟨hmem, hage⟩ := List.mem_filter.1 hreservation
    exact ⟨now, queued, hpast, reservation, hmem, hkey, hage⟩

/-- What is old enough for the sweep is not recent, if it has no text as its time. -/
theorem not_isRecent_of_isOldEnough {instant : String → Option ℚ} {now : ℚ}
    {reservation : Attributes} (hold : isOldEnough now.floor reservation = true)
    (htext : hasTextDate reservation = true → isRecent instant now reservation = false) :
    isRecent instant now reservation = false := by
  unfold isOldEnough at hold
  unfold hasTextDate at htext
  unfold isRecent createdAt at htext ⊢
  cases hcreated : reservation "created_at" with
  | none => rfl
  | some v =>
    rw [hcreated] at hold htext
    cases v with
    | number t =>
      have hage : 30 < now.floor - t.floor := of_decide_eq_true hold
      exact decide_eq_false (not_le.2 hage)
    | text s => exact htext rfl
    | _ => rfl

/-! ### Over a run -/

section Runs

variable {ι : Type} [DecidableEq ι] {cfg : Settings} {inv : ι → Invocation} {w : World}
  {S T : System ι Op Op.Res Unit World} {es : List (Occurrence ι)} {r : String}
  {instant : String → Option ℚ}

omit [DecidableEq ι] in
theorem call_of_begins {e : Occurrence ι} (h : begins r e = true) :
    ∃ c ∈ e.call, c.2.1.begins r = true := by
  unfold begins at h
  split at h
  · exact ⟨_, ‹_›, h⟩
  · cases h

/-- Between a happening that leaves the reservation not waiting and a later one that finds it
waiting, it has been made to wait again. -/
theorem exists_restores {later earlier : List (Occurrence ι)} {d : Occurrence ι}
    (h : History Op.Answers KeepsTable S (later ++ d :: earlier) T)
    (hd : d.after.isWaiting r = false) (hT : T.state.isWaiting r = true) :
    ∃ q ∈ later, restores r q = true := by
  by_contra hnone
  simp only [not_exists, not_and] at hnone
  have hstays := h.holds_since (K := fun w => w.isWaiting r = false) hd fun q hq hbefore => by
    have hq := hnone q hq
    simpa [restores, hbefore] using hq
  rw [hT] at hstays
  cases hstays

/-- Whoever begins a reservation in time begins it once for each time that it is queued. -/
theorem begunOnce (h : History Op.Answers KeepsTable S es T)
    (hwindows : Throughout (BeginsInTime r) es) : BegunOnce r es := by
  rintro later e between d earlier rfl he hd -
  obtain ⟨c, hc, hbegins⟩ := call_of_begins he
  obtain ⟨since, l, past, hsplit, hfound, huntouched⟩ := (hwindows.at.found c hc hbegins).split
  -- whoever begins has found the reservation waiting after `d`, which begins it, too
  obtain ⟨after, rfl⟩ : ∃ after, between = since ++ l :: after := by
    rcases List.append_eq_append_iff.1 hsplit with ⟨gap, rfl, hgap⟩ | ⟨gap, rfl, hgap⟩
    · refine absurd hd (huntouched d ?_)
      cases gap with
      | nil => simp [(List.cons.inj hgap).1]
      | cons d' gap => simp [(List.cons.inj hgap).1]
    · cases gap with
      | nil => exact absurd hd (huntouched d (by simp [(List.cons.inj hgap).1]))
      | cons l' gap => exact ⟨gap, by rw [(List.cons.inj hgap).1]⟩
  have hafter : d.after.isWaiting r = false := by
    have hat : Throughout (BeginsInTime r) ((later ++ e :: (since ++ l :: after)) ++
        d :: earlier) := by simpa using hwindows
    obtain ⟨c', hc', hbegins'⟩ := call_of_begins hd
    have hthrough := hat.at.goesThrough c' hc' hbegins'
    have hserved := h.served (by simp) hc'
    exact Op.not_isWaiting_of_begins hbegins' (Op.effect_of_wentThrough hserved hthrough)
  rw [findsWaiting, Bool.and_eq_true] at hfound
  have hlook : History Op.Answers KeepsTable S ((later ++ e :: since) ++
      l :: (after ++ d :: earlier)) T := by simpa using h
  obtain ⟨U, hU, hbefore⟩ := hlook.before
  obtain ⟨q, hq, hrestores⟩ := exists_restores hU hafter (hbefore ▸ hfound.2)
  obtain ⟨after', earlier', rfl⟩ := List.append_of_mem hq
  have hat : Throughout (BeginsInTime r) ((later ++ e :: (since ++ l :: after')) ++
      q :: (earlier' ++ d :: earlier)) := by simpa using hwindows
  exact ⟨q, by simp, hat.at.restored hrestores⟩

/-- The second thing that a program did, it did after the first. -/
theorem exists_of_traceOf {i : ι} {c d : Program.Event Op Op.Res}
    {rest : List (Program.Event Op Op.Res)} (htrace : traceOf i es = c :: d :: rest)
    (hne : c ≠ d) : ∃ later e earlier, es = later ++ e :: earlier ∧ e.call = some (i, d) ∧
      c ∈ traceOf i earlier := by
  have hmem : d ∈ traceOf i es := by simp [htrace]
  obtain ⟨e, he, hcall⟩ := History.mem_traceOf.1 hmem
  obtain ⟨later, earlier, rfl⟩ := List.append_of_mem he
  refine ⟨later, e, earlier, rfl, hcall, ?_⟩
  rw [traceOf_append, traceOf_cons_of_call hcall, List.append_assoc] at htrace
  cases hearlier : traceOf i earlier with
  | nil =>
    rw [hearlier] at htrace
    exact absurd (List.cons.inj htrace).1.symm hne
  | cons c' rest' =>
    rw [hearlier] at htrace
    rw [(List.cons.inj htrace).1]
    exact List.mem_cons_self

/-- A sweep that is shown no recent reservation with a text as its time begins no recent one. -/
theorem leavesRecent
    (h : History Op.Answers KeepsTable ⟨w, fun i => (inv i).program cfg⟩ es T)
    (hdates : Throughout (ShowsDates instant inv r) es) : LeavesRecent instant inv r es := by
  rintro later e earlier i op res rfl hcall hsweep hbegins
  have hheeds : ((inv i).program cfg).Heeds (fun past op => op.begins r = true →
      ∃ now items, Swept now items past ∧ ∃ reservation ∈ items, reservation.key = r ∧
        isOldEnough now.floor reservation = true) (fun _ _ => True) [] := by
    rw [Invocation.program_of_isSweep hsweep]
    exact Program.Heeds.bind (heeds_processScheduledQueueManagement cfg r) fun _ _ _ => trivial
  obtain ⟨now, items, ⟨rest, htrace⟩, reservation, hmem, hkey, hold⟩ :=
    h.heeds hheeds hcall hbegins
  refine ⟨now, items, rest, htrace, reservation, hmem, hkey,
    not_isRecent_of_isOldEnough hold fun htext => ?_⟩
  obtain ⟨later', d, earlier', rfl, hdcall, hnow⟩ :=
    exists_of_traceOf htrace fun heq => by cases heq
  have hat : Throughout (ShowsDates instant inv r) ((later ++ e :: later') ++ d :: earlier') := by
    simpa using hdates
  exact hat.at _ hdcall reservation (by simpa [queueShown, hsweep] using hmem) hkey htext now
    (List.mem_filterMap.2 ⟨_, hnow, rfl⟩)

end Runs

/-! ### Two sweeps at once -/

/-- The texts of two moments. -/
def instantOf (s : String) : Option ℚ :=
  if s = "2026-08-17T16:27:45" then some 1786984065
  else if s = "2026-08-17T16:20:00" then some 1786983600
  else none

/-- A request made some minutes ago. -/
def earlierRequest : Attributes :=
  requestWithoutNodes.set "created_at" (.text "2026-08-17T16:20:00")

/-- A request and two sweeps. -/
def requestAndSweeps (request : Attributes) : Fin 3 → Invocation
  | 0 => .message request
  | 1 => .sweep
  | 2 => .sweep

/-- All of them before any has begun. -/
def beforeSweeps (request : Attributes) : System (Fin 3) Op Op.Res Unit World :=
  ⟨⟨∅, ∅, [], ∅⟩, fun i => (requestAndSweeps request i).program .usual⟩

/-- A node with eight A100 GPUs. -/
def nodeOfA100 : Node where
  name := "node-1"
  labels := dictOf [("GpuType", "a100")]
  ready := true
  unschedulable := false
  taints := []
  allocatable := [("nvidia.com/gpu", 8)]

/-- The node comes up. -/
def nodeComesUp : Turn (Fin 3) World := .env fun w => { w with nodes := [nodeOfA100] }

/-- The request is queued, and once there is a node one sweep after the other is made. -/
def sweepsInTurn : List (Turn (Fin 3) World) :=
  List.replicate 24 (.call 0) ++ [nodeComesUp] ++ List.replicate 20 (.call 1) ++
    List.replicate 6 (.call 2)

/-- Both sweeps read the record before either of them writes it. -/
def sweepsAtOnce : List (Turn (Fin 3) World) :=
  List.replicate 24 (.call 0) ++ [nodeComesUp] ++ List.replicate 9 (.call 1) ++
    List.replicate 16 (.call 2) ++ List.replicate 7 (.call 1)

/-- The latest happening begins a reservation that has been begun since it was queued. -/
def begunAgain {ι : Type} (r : String) : List (Occurrence ι) → Bool
  | [] => false
  | e :: past => begins r e && (past.takeWhile fun d => !begins r d).all (fun q => !queues r q) &&
    match past.dropWhile fun d => !begins r d with
    | [] => false
    | d :: earlier => begins r d && earlier.any (queues r)

theorem not_begunOnce_of_begunAgain {ι : Type} {r : String} {es : List (Occurrence ι)}
    (h : begunAgain r es = true) : ¬ BegunOnce r es := by
  intro honce
  cases es with
  | nil => cases h
  | cons e past =>
    rw [begunAgain, Bool.and_eq_true, Bool.and_eq_true] at h
    obtain ⟨⟨he, hbetween⟩, hrest⟩ := h
    split at hrest
    · cases hrest
    · rename_i d earlier hdrop
      rw [Bool.and_eq_true, List.any_eq_true] at hrest
      have hpast : past = past.takeWhile (fun d => !begins r d) ++ d :: earlier := by
        rw [← hdrop, List.takeWhile_append_dropWhile]
      obtain ⟨q, hq, hqueues⟩ := honce [] e _ d earlier (congrArg (e :: ·) hpast) he hrest.1 hrest.2
      have hnot := List.all_eq_true.1 hbetween q hq
      rw [hqueues] at hnot
      cases hnot

/-- What a sweep has read first: the time and the queue. -/
def firstShown : List (Program.Event Op Op.Res) → Option (ℚ × List Attributes)
  | ⟨.epoch, now⟩ :: ⟨.find (.status "queued"), .ok items⟩ :: _ => some (now, items)
  | _ => none

/-- The latest happening is a sweep's that begins a reservation shown to it only as recent. -/
def begunRecent {ι : Type} [DecidableEq ι] (instant : String → Option ℚ) (inv : ι → Invocation)
    (r : String) : List (Occurrence ι) → Bool
  | [] => false
  | e :: past => e.call.any fun c => (inv c.1).isSweep && c.2.1.begins r &&
    (firstShown (traceOf c.1 past)).all fun shown => shown.2.all fun reservation =>
      reservation.key ≠ r || isRecent instant shown.1 reservation

theorem not_leavesRecent_of_begunRecent {ι : Type} [DecidableEq ι] {instant : String → Option ℚ}
    {inv : ι → Invocation} {r : String} {es : List (Occurrence ι)}
    (h : begunRecent instant inv r es = true) : ¬ LeavesRecent instant inv r es := by
  intro hleaves
  cases es with
  | nil => cases h
  | cons e past =>
    rw [begunRecent, Option.any_eq_true] at h
    obtain ⟨⟨i, op, res⟩, hcall, h⟩ := h
    rw [Bool.and_eq_true, Bool.and_eq_true] at h
    obtain ⟨⟨hsweep, hbegins⟩, hshown⟩ := h
    obtain ⟨now, items, rest, htrace, reservation, hmem, hkey, hold⟩ :=
      hleaves [] e past i op res rfl hcall hsweep hbegins
    rw [htrace] at hshown
    have hrecent := List.all_eq_true.1 hshown reservation hmem
    simp [hkey, hold] at hrecent

end CiInfra.GpuDev
