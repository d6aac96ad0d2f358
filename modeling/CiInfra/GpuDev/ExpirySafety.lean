import CiInfra.GpuDev.ExpiryFootprints

/-!
# Expiry in the face of extensions

A run of the expiry handler decides from the items it has listed at its start which reservations
are over, and ends them without another look, up to many minutes later. It is right about those
whose records have stayed as they were listed, with an expiry that parses.
-/

namespace CiInfra.GpuDev.Lifecycle

open Interaction Fallible

/-- Something that happened: a call, or a change by the surroundings. -/
abbrev Occurrence (ι : Type) := Happening ι Op Op.Res World

/-- The reservation that the status write of `expire_reservation` ends. -/
def Op.expires : Op → Option String
  | update id (.expired _) => some id
  | _ => none

/-- The reservation is active, and its expiry and the grace period lie in the past. -/
def World.isOver (cfg : Settings) (w : World) (r : String) : Bool :=
  match w.records.lookup r with
  | some x => x.status = "active" && match x.expiresAt with
    | some (.moment t) => t + cfg.gracePeriodSeconds < w.clock.1
    | _ => false
  | none => false

/-- What is expired is active and over when it is. -/
def ExpiresInTime {ι : Type} (cfg : Settings) (es : List (Occurrence ι)) : Prop :=
  ∀ e ∈ es, ∀ c ∈ e.call, ∀ r ∈ c.2.1.expires, e.before.isOver cfg r = true

/-- The items of a reservation that a query for a status shows. -/
def Op.listed (status r : String) : (op : Op) → op.Res → List Record
  | query s, .ok xs => if s = status then xs.filter (·.id = r) else []
  | _, _ => []

/-- The item is as the record is, and its expiry parses. -/
def Record.isCurrentIn (x : Record) (w : World) : Bool :=
  (x.expiresAt.bind Stamp.time?).isSome && match w.records.lookup x.id with
    | some y => y.status = x.status && y.expiresAt = x.expiresAt
    | none => false

section Windows

variable {ι : Type} [DecidableEq ι]

/-- The items of a reservation among the active ones that a run lists. -/
def listedActive (i : ι) (r : String) (e : Occurrence ι) : List Record :=
  match e.call with
  | some (j, ⟨op, res⟩) => if j = i then op.listed "active" r res else []
  | none => []

/-- A run that expires a reservation does so while the record is as the run has listed it. -/
def expiresWhatItLists (past : List (Occurrence ι)) (e : Occurrence ι) : Prop :=
  ∀ c ∈ e.call, ∀ r ∈ c.2.1.expires,
    StaysTrue (listedActive c.1 r) (fun x w => x.isCurrentIn w = true) past

instance (past : List (Occurrence ι)) (e : Occurrence ι) :
    Decidable (expiresWhatItLists past e) :=
  inferInstanceAs (Decidable (∀ c ∈ e.call, _))

end Windows

instance {ι : Type} (cfg : Settings) (es : List (Occurrence ι)) :
    Decidable (ExpiresInTime cfg es) :=
  inferInstanceAs (Decidable (∀ e ∈ es, _))

/-! ### The clock -/

/-- The clock never goes back. -/
theorem clock_le {ι : Type} [DecidableEq ι] {S T : System ι Op Op.Res Unit World}
    {es : List (Occurrence ι)} (h : History Op.Answers Elapses S es T) {d : Occurrence ι}
    (hd : d ∈ es) : d.before.clock.1 ≤ T.state.clock.1 := by
  refine h.stays (K := fun w => d.before.clock.1 ≤ w.clock.1) (fun e he hle => ?_) d hd le_rfl
  cases hcall : e.call with
  | none => exact hle.trans (h.changed he hcall)
  | some c =>
    rw [Op.Answers.clock (h.served he hcall)]
    exact hle

theorem truncate_mono {s t : ℚ} (h : s ≤ t) :
    PythonNumber.truncate s ≤ PythonNumber.truncate t := by
  unfold PythonNumber.truncate
  split
  · rw [if_pos (by linarith)]
    exact Int.floor_le_floor h
  · split
    · refine (Int.ceil_le.mpr ?_).trans (Int.floor_nonneg.mpr ‹0 ≤ t›)
      exact_mod_cast (not_le.mp ‹¬ 0 ≤ s›).le
    · exact Int.ceil_le_ceil h

/-- What is over by whole seconds is over. -/
theorem lt_of_truncate_lt {t now : ℚ} {grace : ℤ} (hnow : 0 ≤ now)
    (h : PythonNumber.truncate t + grace < PythonNumber.truncate now) : t + grace < now := by
  have hlt : PythonNumber.truncate t + grace + 1 ≤ ⌊now⌋ := by
    have htruncate : PythonNumber.truncate now = ⌊now⌋ := if_pos hnow
    exact htruncate ▸ h
  have hnow' : ((PythonNumber.truncate t + grace + 1 : ℤ) : ℚ) ≤ now := Int.le_floor.mp hlt
  have ht : t < PythonNumber.truncate t + 1 := by
    unfold PythonNumber.truncate
    split
    · exact Int.lt_floor_add_one t
    · exact (Int.le_ceil t).trans_lt (lt_add_one _)
  push_cast at hnow'
  linarith

/-! ### What a run expires -/

section Run

variable {cfg : Settings} {r : String} {now : ℚ}

/-- The call does not expire the reservation. -/
def Op.Spares (r : String) (op : Op) : Prop := op.expires ≠ some r

theorem spares_of_expires {op : Op} (h : op.expires = none) : op.Spares r := by
  simp [Op.Spares, h]

instance : AllowsIncidental (Op.Spares r) where
  incidental op h := spares_of_expires (by cases op <;> first | rfl | cases h)

/-- The time is no later than `now`, and no item that is shown is over by then. -/
def ShowsNotOver (cfg : Settings) (r : String) (now : ℚ) (c : Program.Event Op Op.Res) : Prop :=
  (∀ t : ℚ, c = ⟨.time, t⟩ → t ≤ now) ∧
    ∀ x ∈ c.1.listed "active" r c.2, x.isOver cfg (PythonNumber.truncate now) = false

theorem spares_update {id : String} {change : Change} (h : ∀ t, change ≠ .expired t) :
    (Op.update id change).Spares r := by
  cases change <;> first | exact (h _ rfl).elim | exact spares_of_expires rfl

theorem Record.isOver_mono {x : Record} {s t : ℤ} (hst : s ≤ t) (h : x.isOver cfg s = true) :
    x.isOver cfg t = true := by
  simp only [isOver, decide_eq_true_eq] at h ⊢
  omega

/-- An active reservation that is not over is not expired. -/
theorem spares_expireActive {t : ℚ} {x : Record} (ht : t ≤ now)
    (hx : x.id = r → x.isOver cfg (PythonNumber.truncate now) = false) :
    Keeps (ShowsNotOver cfg r now) (Op.Spares r)
      (expireActive cfg (PythonNumber.truncate t) x) := by
  have hfree : MayFree (ShowsNotOver cfg r now) (Op.Spares r) x fun _ => True :=
    MayFree.of_all x fun _ _ => spares_of_expires rfl
  unfold expireActive
  split
  · have hid : x.id ≠ r := by
      intro hid
      have hover := Record.isOver_mono (truncate_mono ht) ‹_›
      rw [hx hid] at hover
      cases hover
    exact Meets.logged (keeps_expireReservation hfree (fun _ => spares_of_expires rfl)
      fun t h => hid (Option.some.inj h))
  · refine keeps_watchActive hfree (fun _ => spares_of_expires rfl) ?_
      (fun _ _ => spares_update nofun) (fun _ _ => spares_update nofun)
      (fun _ _ _ => spares_update nofun) _
    exact (keeps_checkPodExists x.podName).mono (fun _ h => h)
      (fun _ _ _ => keeps_expireReservationDueToMissingPod hfree fun _ _ => spares_update nofun)
      fun _ _ => trivial

/-- Every job spares the reservation as long as it is not shown to be over. -/
theorem Job.spares (cfg : Settings) (r : String) (now : ℚ) (job : Job) :
    (job.program cfg).Within (ShowsNotOver cfg r now) (Op.Spares r) fun _ => True := by
  by_cases hjob : job = .expiry
  · subst hjob
    refine (keeps_expiryHandler_of_active (B := fun status x => status = "active" → x.id = r →
        x.isOver cfg (PythonNumber.truncate now) = false) (spares_of_expires rfl)
      (fun _ _ => spares_of_expires rfl) (fun _ _ _ => spares_of_expires rfl)
      (fun _ _ => spares_update nofun) (fun _ _ => spares_update nofun) ?_ ?_).toEnd
    · intro status xs h x hx hstatus hid
      refine h.2 x ?_
      simp [Op.listed, hstatus, hx, hid]
    · exact fun t ht x hx => spares_expireActive (ht.1 t rfl) (hx rfl)
  · refine Job.within_of_message hjob (fun id change hchange => ?_)
      (fun _ _ => spares_of_expires rfl) fun _ _ _ => spares_of_expires rfl
    cases change <;> first | cases hchange; done | exact spares_update nofun

end Run

/-! ### Every history -/

/-- What a query for a status shows has that status. -/
theorem status_of_listed {op : Op} {res : op.Res} {w w' : World} (h : op.Answers w res w')
    {status r : String} {x : Record} (hx : x ∈ op.listed status r res) :
    x.status = status ∧ x.id = r := by
  unfold Op.listed at hx
  split at hx
  · split at hx
    · rename_i hs
      obtain ⟨hmem, hid⟩ := List.mem_filter.mp hx
      exact ⟨hs ▸ h.2 _ rfl x hmem, by simpa using hid⟩
    · cases hx
  · cases hx

/-- An item that is over and as its record is. -/
theorem isOver_of_current {cfg : Settings} {w : World} {x : Record} (hactive : x.status = "active")
    (hover : x.isOver cfg (PythonNumber.truncate w.clock.1) = true)
    (hcurrent : x.isCurrentIn w = true) : w.isOver cfg x.id = true := by
  simp only [Record.isCurrentIn, Bool.and_eq_true] at hcurrent
  obtain ⟨hparses, hcurrent⟩ := hcurrent
  cases hlookup : w.records.lookup x.id with
  | none => simp [hlookup] at hcurrent
  | some y =>
    simp only [hlookup, Bool.and_eq_true, decide_eq_true_eq] at hcurrent
    obtain ⟨hstatus, hexpires⟩ := hcurrent
    match hx : x.expiresAt with
    | none => simp [hx] at hparses
    | some .garbled => simp [hx, Stamp.time?] at hparses
    | some (.moment t) =>
      simp only [Record.isOver, Record.expiresAtSeconds, seconds?, hx, Option.bind_some,
        Stamp.time?, Option.map_some, Option.getD_some, decide_eq_true_eq] at hover
      have hlt := lt_of_truncate_lt w.clock.2 hover
      simp [World.isOver, hlookup, hstatus, hexpires, hx, hactive, hlt]

section Histories

variable {cfg : Settings} {ι : Type} [DecidableEq ι] {job : ι → Job} {w : World}
  {T : System ι Op Op.Res Unit World} {es : List (Occurrence ι)}

/-- What has led to the expiry of a reservation: the run listed it among the active ones, and by
now it is over. -/
theorem exists_listedActive {later earlier : List (Occurrence ι)} {e : Occurrence ι} {i : ι}
    {op : Op} {res : op.Res} {r : String}
    (h : History Op.Answers Elapses ⟨w, fun i => (job i).program cfg⟩ (later ++ e :: earlier) T)
    (hcall : e.call = some (i, ⟨op, res⟩)) (hexpires : op.expires = some r) :
    ∃ d ∈ earlier, ∃ x ∈ listedActive i r d, x.status = "active" ∧ x.id = r ∧
      x.isOver cfg (PythonNumber.truncate e.before.clock.1) = true := by
  obtain ⟨U, hU, hbefore⟩ := h.before
  obtain ⟨d, hd, c, hdcall, hshown⟩ := h.exists_before
    (Job.spares cfg r e.before.clock.1 (job i)) hcall fun hspares => hspares hexpires
  obtain ⟨dop, dres⟩ := c
  have hserved := hU.served hd hdcall
  have htime : ∀ t : ℚ, (⟨dop, dres⟩ : Program.Event Op Op.Res) = ⟨.time, t⟩ →
      t ≤ e.before.clock.1 := by
    intro t ht
    cases ht
    rw [hserved.2, hbefore]
    exact clock_le hU hd
  have hover : ∃ x ∈ dop.listed "active" r dres,
      x.isOver cfg (PythonNumber.truncate e.before.clock.1) = true := by
    by_contra hnone
    refine hshown ⟨htime, fun x hx => ?_⟩
    by_contra hx'
    exact hnone ⟨x, hx, by simpa using hx'⟩
  obtain ⟨x, hx, hover⟩ := hover
  obtain ⟨hstatus, hid⟩ := status_of_listed hserved hx
  exact ⟨d, hd, x, by simpa [listedActive, hdcall] using hx, hstatus, hid, hover⟩

/-- Reservations are expired in time in every history in which each run expires them while their
records are as it has listed them. -/
theorem expiresInTime
    (h : History Op.Answers Elapses ⟨w, fun i => (job i).program cfg⟩ es T)
    (hlisted : Throughout expiresWhatItLists es) : ExpiresInTime cfg es := by
  intro e he c hcall r hr
  obtain ⟨i, op, res⟩ := c
  obtain ⟨later, earlier, rfl⟩ := List.append_of_mem he
  obtain ⟨U, hU, hbefore⟩ := h.before
  obtain ⟨d, hd, x, hx, hactive, rfl, hover⟩ := exists_listedActive h hcall hr
  have hcurrent : x.isCurrentIn e.before = true :=
    hbefore ▸ (hlisted.at _ hcall x.id hr).holds hU d hd x hx
  exact isOver_of_current hactive hover hcurrent

end Histories

/-! ### An extension during a run -/

/-- The settings in use. -/
def Settings.usual : Settings where
  gracePeriodSeconds := 120
  dnsEnabled := false
  loadBalancerEnabled := false

/-- A reservation of two hours, launched at the beginning of time. -/
def twoHours : Record :=
  { Record.fresh "6f1d3c52-9a0b-4c7e-8d25-1b7e0a4f9c33" with
    userId := some "mira", status := "active", expiresAt := some (.moment 7200),
    launchedAt := some (.moment 0), durationHours := some 2 }

theorem hour_nonneg : (0 : ℚ) ≤ 3600 := by decide

/-- The reservation, just over. -/
def justOver : World where
  clock := ⟨7400, by decide⟩
  records := AList.singleton twoHours.id twoHours
  pods := ∅
  disks := ∅
  volumes := ∅
  snapshots := ∅

/-- A run of the expiry handler, and an extension of the reservation by an hour. -/
def runAndExtension : Bool → Job
  | false => .expiry
  | true => .extend ⟨"m1", twoHours.id, "mira", some (.number 1)⟩

/-- Both before either has begun. -/
def beforeRun : System Bool Op Op.Res Unit World :=
  ⟨justOver, fun i => (runAndExtension i).program .usual⟩

/-- The run expires the reservation before the extension is looked at. -/
def expiredFirst : List (Turn Bool World) := List.replicate 5 (.call false)

/-- The reservation is extended between the listing and the expiry. -/
def extendedMeanwhile : List (Turn Bool World) :=
  List.replicate 4 (.call false) ++ List.replicate 2 (.call true) ++ [.call false]

theorem expiresInTime_expiredFirst :
    ExpiresInTime .usual (play Script.fine.serve beforeRun expiredFirst).1 :=
  expiresInTime
    (History.of_play Script.fine.answers_serve beforeRun expiredFirst (by simp [expiredFirst]))
    (by decide +kernel)

/-- A reservation that is extended while a run goes on is expired all the same. -/
theorem not_expiresInTime_extendedMeanwhile :
    History Op.Answers Elapses beforeRun (play Script.fine.serve beforeRun extendedMeanwhile).1
      (play Script.fine.serve beforeRun extendedMeanwhile).2 ∧
    ¬ ExpiresInTime .usual (play Script.fine.serve beforeRun extendedMeanwhile).1 :=
  ⟨History.of_play Script.fine.answers_serve beforeRun extendedMeanwhile
    (by simp [extendedMeanwhile]), by decide +kernel⟩

end CiInfra.GpuDev.Lifecycle
