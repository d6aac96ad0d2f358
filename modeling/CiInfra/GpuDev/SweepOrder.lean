import CiInfra.GpuDev.QueueCoverage
import CiInfra.GpuDev.QueueStarts
import CiInfra.GpuDev.RoomChecks

/-!
# What a sweep has done when it starts a reservation

A sweep goes over the reservations that it has listed in the order of their creation. When it
starts one of them, it has found room for it, and it has tried every earlier one before: it has
started each for which it was shown enough room.
-/

namespace CiInfra.GpuDev

open Interaction Fallible

/-- The call gives the record of a reservation the status `preparing`. -/
def Op.prepares (r : String) : Op → Bool
  | updateItem id u => id = r && u.prepares
  | putItem item (some .notTerminated) => item.key = r && item.isOneOf "status" ["preparing"]
  | _ => false

theorem Op.not_prepares_of_isQuiet {op : Op} {r : String} (h : op.IsQuiet = true) :
    op.prepares r = false := by
  cases op <;> first | rfl | cases h

/-- The type that a sweep reads in a listed reservation. -/
def Attributes.gpuType (x : Attributes) : String := x.text "gpu_type" "h100"

/-- The count that a sweep reads in a listed reservation. -/
def Attributes.gpuCount (x : Attributes) : ℕ := x.natural "gpu_count" 1

/-- The record of a reservation has been updated to the status `preparing`. -/
def HasPrepared (r : String) (past : List (Program.Event Op Op.Res)) : Prop :=
  ∃ c ∈ past, ∃ u : Update, c.1 = .updateItem r u ∧ u.prepares = true

/-- Whatever room is enough for the calls to show no more, is enough for the reservation. -/
def FoundRoom (cfg : Settings) (x : Attributes) (past : List (Program.Event Op Op.Res)) : Prop :=
  ∀ κ, (∀ c ∈ past, (Bound.atMost κ).Admits x.gpuType x.key c) →
    κ.hasRoomFor cfg x.gpuType x.gpuCount = true

/-- If the calls have shown enough room for the reservation, its record has been updated. -/
def Handled (cfg : Settings) (x : Attributes) (past : List (Program.Event Op Op.Res)) : Prop :=
  x.key ≠ "" → ∀ κ, (∀ c ∈ past, (Bound.atLeast κ).Admits x.gpuType x.key c) →
    κ.hasRoomFor cfg x.gpuType x.gpuCount = true → HasPrepared x.key past

section

variable {cfg : Settings} {x : Attributes} {r : String}
  {past : List (Program.Event Op Op.Res)}

theorem HasPrepared.append (h : HasPrepared r past) (more : List (Program.Event Op Op.Res)) :
    HasPrepared r (more ++ past) := by
  obtain ⟨c, hc, hu⟩ := h
  exact ⟨c, List.mem_append_right _ hc, hu⟩

theorem FoundRoom.cons (h : FoundRoom cfg x past) (c : Program.Event Op Op.Res) :
    FoundRoom cfg x (c :: past) :=
  fun κ hκ => h κ fun d hd => hκ d (List.mem_cons_of_mem _ hd)

theorem Handled.append (h : Handled cfg x past) (more : List (Program.Event Op Op.Res)) :
    Handled cfg x (more ++ past) :=
  fun hkey κ hκ hroom =>
    (h hkey κ (fun d hd => hκ d (List.mem_append_right _ hd)) hroom).append more

theorem Handled.append_right (h : Handled cfg x past) (before : List (Program.Event Op Op.Res)) :
    Handled cfg x (past ++ before) := by
  intro hkey κ hκ hroom
  obtain ⟨c, hc, hu⟩ := h hkey κ (fun d hd => hκ d (List.mem_append_left _ hd)) hroom
  exact ⟨c, List.mem_append_left _ hc, hu⟩

/-! ### Writing the status -/

theorem Update.prepares_statusFields (v : Value) (detailed : String) :
    (Update.set (("last_updated", v) :: statusFields "preparing" detailed "")).prepares = true := by
  by_cases hd : detailed = "" <;>
    simp [Update.prepares, Update.status, statusFields, Attributes.ofList, hd, List.lookup_cons]

/-- Once the status `preparing` has been set, the record has been updated to it. -/
theorem heeds_setPreparing {P : List (Program.Event Op Op.Res) → Op → Prop}
    {K : List (Program.Event Op Op.Res) → Prop}
    {E : List (Program.Event Op Op.Res) → Failure → Prop}
    (hcall : ∀ past op, K past → op.IsOfRecord r → P past op)
    (hkeep : ∀ past c, K past → K (c :: past)) (hpast : K past) (detailed : String) :
    (updateReservationStatus r "preparing" detailed).Heeds P
      (fun past _ => K past ∧ (r ≠ "" → HasPrepared r past)) E past := by
  have hlater : ∀ {α : Type} (p : Lambda α), p.Issues (Op.IsOfRecord r) →
      ∀ past, K past ∧ (r ≠ "" → HasPrepared r past) →
        p.Heeds P (fun past _ => K past ∧ (r ≠ "" → HasPrepared r past))
          (fun past _ => K past ∧ (r ≠ "" → HasPrepared r past)) past := by
    intro α p hp past hK
    exact hp.heeds (fun past op hK hop => hcall past op hK.1 hop)
      (fun past op res hK _ => ⟨hkeep past _ hK.1, fun hr => (hK.2 hr).append [_]⟩) hK
  refine Heeds.logged (Heeds.bind (Q := fun past _ => K past)
    (heeds_request (hcall _ _ hpast (Or.inl rfl)) (fun _ _ _ => hkeep _ _ hpast)
      fun _ _ h => by cases h) fun past _ hK => ?_)
  refine Heeds.bind (Q := fun past _ => K past ∧ (r ≠ "" → HasPrepared r past)) ?_
    fun past _ hK => hlater _ (Issues.whenever _ (Issues.logged
      (issues_appendStatusHistory (P := Op.IsOfRecord r) _ _))) past hK
  unfold updateReservationFields
  by_cases hr : r = ""
  · rw [hr]
    exact Heeds.logged (heeds_pure ⟨hK, fun h => absurd rfl h⟩)
  have hwrite : (decide (r ≠ "") && !(statusFields "preparing" detailed "").isEmpty) = true := by
    simp [hr, statusFields]
  rw [hwrite, whenever, if_pos rfl]
  refine Heeds.logged (Heeds.bind (Q := fun past _ => K past)
    (heeds_request (hcall _ _ hK (Or.inl rfl)) (fun _ _ _ => hkeep _ _ hK)
      fun _ _ h => by cases h) fun past now hK => ?_)
  have hprepared : ∀ res, K (⟨.updateItem r (.set (("last_updated", .number now.floor) ::
      statusFields "preparing" detailed "")), res⟩ :: past) ∧ (r ≠ "" → HasPrepared r
        (⟨.updateItem r (.set (("last_updated", .number now.floor) ::
          statusFields "preparing" detailed "")), res⟩ :: past)) := fun res =>
    ⟨hkeep _ _ hK, fun _ =>
      ⟨_, List.mem_cons_self, _, rfl, Update.prepares_statusFields _ _⟩⟩
  exact heeds_request (hcall _ _ hK (Or.inr ⟨_, rfl⟩)) (fun res _ _ => hprepared res)
    fun res _ _ => hprepared res

end

/-! ### What prepares no reservation, and what prepares only one -/

/-- The call prepares no reservation. -/
def Op.PreparesNone (op : Op) : Prop := ∀ r, op.prepares r = false

/-- The call prepares no other reservation. -/
def Op.PreparesOnly (r : String) (op : Op) : Prop := ∀ r', op.prepares r' = true → r' = r

instance : AllowsQuiet Op.PreparesNone where
  quiet _ hop _ := Op.not_prepares_of_isQuiet hop

instance {r : String} : Connects r (Op.PreparesOnly r) where
  quiet op hop r' h := by simp [Op.not_prepares_of_isQuiet hop] at h
  update u _ r' h := by
    simp only [Op.prepares, Bool.and_eq_true, decide_eq_true_eq] at h
    exact h.1.symm
  connection u _ _ r' h := by
    simp only [Op.prepares, Bool.and_eq_true, decide_eq_true_eq] at h
    exact h.1.symm
  cache _ _ _ _ h := by cases h
  deletePod _ _ h := by cases h
  createVolume _ _ _ h := by cases h
  createPod _ _ h := by cases h

theorem preparesNone_updateItem {r : String} {u : Update} (h : u.prepares = false) :
    (Op.updateItem r u).PreparesNone := by
  intro r'
  simp [Op.prepares, h]

/-- A reservation that stays in the queue is not prepared. -/
theorem preparesNone_updateQueued (cfg : Settings) (r : String) (x : Attributes)
    (position availableGpus : ℕ) (spotStatus : SpotStatus) :
    (updateQueued cfg r x position availableGpus spotStatus).Issues Op.PreparesNone := by
  have hqueued : ∀ detailed, (updateReservationStatus r "queued" detailed).Issues
      Op.PreparesNone := by
    intro detailed
    refine Issues.logged ((issues_quiet rfl).bind fun _ => (issues_fields fun v => ?_).bind
      fun _ => Issues.whenever _ (Issues.logged (Issues.tryCatch (issues_request ?_)
        fun _ => issues_request ?_)))
    · refine preparesNone_updateItem ?_
      by_cases hd : detailed = "" <;> simp [Update.prepares, Update.status, statusFields,
        Attributes.ofList, hd, List.lookup_cons]
    · exact preparesNone_updateItem rfl
    · exact preparesNone_updateItem rfl
  refine Issues.bind ?_ fun wait => Issues.bind ?_ fun _ => Issues.bind ?_ fun _ => trivial
  · unfold estimateWait
    split
    · split
      · exact (Issues.logged (issues_quiet rfl)).bind fun _ =>
          (Issues.orElseGive (issues_quiet rfl) _).bind fun _ => trivial
      · trivial
    · exact (Issues.orElseGive (issues_quiet rfl) _).bind fun _ => trivial
  · exact Issues.logged ((issues_quiet rfl).bind fun _ => issues_fields fun v =>
      preparesNone_updateItem rfl)
  · unfold reportQueued
    split
    · split
      · exact hqueued _
      · trivial
    · exact Issues.whenever _ (hqueued _)

/-! ### One reservation -/

section One

variable {cfg : Settings} {x : Attributes} {past : List (Program.Event Op Op.Res)}

/-- Who prepares the reservation has found room for it. -/
abbrev PreparesWithRoom (cfg : Settings) (x : Attributes) (past : List (Program.Event Op Op.Res))
    (op : Op) : Prop :=
  ∀ r, op.prepares r = true → r = x.key ∧ FoundRoom cfg x past

theorem preparesWithRoom_of_isQuiet {op : Op} (h : op.IsQuiet = true) :
    PreparesWithRoom cfg x past op :=
  fun r hr => by simp [Op.not_prepares_of_isQuiet h] at hr

instance : AllowsQuiet fun _ => True where
  quiet _ _ := trivial

instance : AllowsQuiet fun op => op.IsQuiet = true where
  quiet _ h := h

/-- What a check finds is bounded by what it and the calls before it are shown. -/
theorem heeds_check {α : Type} {p : Lambda α} {Q : Bound → α → Prop}
    {E : List (Program.Event Op Op.Res) → Failure → Prop}
    (hquiet : p.Meets (fun _ => True) (fun op => op.IsQuiet = true) (fun _ => True) fun _ => False)
    (h : ∀ k : Bound, (∀ c ∈ past, k.Admits x.gpuType x.key c) →
      p.Meets (k.Admits x.gpuType x.key) (fun _ => True) (Q k) fun _ => True) :
    p.Heeds (PreparesWithRoom cfg x) (fun past a => ∀ k : Bound,
      (∀ c ∈ past, k.Admits x.gpuType x.key c) → Q k a) E past :=
  (Meets.heeds hquiet (fun _ _ hop => preparesWithRoom_of_isQuiet hop) h).mono (fun _ _ h => h)
    fun _ _ h => h.elim

/-- The three checks find room only if what they are shown is room enough, and they find it if
that is shown to be room enough. -/
theorem heeds_checks {f : ℕ → ℕ → Bool → Lambda SpotStatus}
    (hf : ∀ past available onOneNode ready, (∀ k : Bound,
      (∀ c ∈ past, k.Admits x.gpuType x.key c) →
        k.Implies (k.capacity.hasRoomFor cfg x.gpuType x.gpuCount = true)
          ((x.gpuCount ≤ available && x.gpuCount ≤ onOneNode && ready) = true)) →
      (f available onOneNode ready).Heeds (PreparesWithRoom cfg x)
        (fun past _ => Handled cfg x past) (fun past _ => Handled cfg x past) past) :
    (do
      let availableGpus ← checkGpuAvailability x.gpuType
      let maxSingleNode ← checkMaxGpusOnSingleNode x.gpuType
      let ready ← cpuSpotReady cfg x.gpuType x.gpuCount
      f availableGpus maxSingleNode ready : Lambda SpotStatus).Heeds (PreparesWithRoom cfg x)
        (fun past _ => Handled cfg x past) (fun past _ => Handled cfg x past) past := by
  refine Heeds.bind (heeds_check (quiet_checkGpuAvailability _) fun k _ =>
    meets_checkGpuAvailability) fun past available havailable => ?_
  refine Heeds.bind (heeds_check (quiet_checkMaxGpusOnSingleNode _) fun k hk =>
    Meets.mono meets_checkMaxGpusOnSingleNode (fun _ h => h)
      (fun onOneNode honOneNode => And.intro (havailable k hk) honOneNode) fun _ h => h)
    fun past onOneNode hnumbers => ?_
  exact Heeds.bind (heeds_check (quiet_cpuSpotReady _ _ _) fun k hk =>
    Meets.mono (meets_cpuSpotReady cfg x.gpuCount) (fun _ h => h)
      (fun ready hready => Bound.implies_hasRoomFor (hnumbers k hk).1 (hnumbers k hk).2 hready)
      fun _ h => h) fun past ready hfound => hf past available onOneNode ready hfound

/-- Who starts a reservation that it has found room for prepares it, if it reads it as queued. -/
theorem heeds_startQueued (hroom : FoundRoom cfg x past) (availableGpus : ℕ) :
    (startQueued cfg x.key x availableGpus).Heeds (PreparesWithRoom cfg x)
      (fun past _ => Handled cfg x past) (fun past _ => Handled cfg x past) past := by
  have hmisled : ∀ {past : List (Program.Event Op Op.Res)} {c : Program.Event Op Op.Res},
      c ∈ past → c.1.misleads x.key c.2 = true → Handled cfg x past := by
    intro past c hc hmisleads _ κ hκ
    rw [(hκ c hc).2] at hmisleads
    cases hmisleads
  refine Heeds.bind (Q := fun past current => FoundRoom cfg x past ∧
    (current.text "status" "queued" ≠ "queued" → Handled cfg x past)) ?_ fun past current h => ?_
  · refine Heeds.bind (Q := fun past item => FoundRoom cfg x past ∧
      ((item.getD fun _ => none).text "status" "queued" ≠ "queued" → Handled cfg x past))
      (heeds_request (preparesWithRoom_of_isQuiet rfl) ?_ ?_) fun past item h => heeds_pure h
    · intro res item hok
      have hres : res = .ok item := hok
      subst hres
      exact ⟨hroom.cons _, fun hstatus => hmisled List.mem_cons_self (by
        simp [Op.misleads, hstatus])⟩
    · intro res e herror
      have hres : res = .error e := herror
      subst hres
      exact hmisled List.mem_cons_self (by simp [Op.misleads])
  split
  · exact heeds_pure (h.2 ‹_›)
  · have hown : ∀ (past : List (Program.Event Op Op.Res)) (op : Op), FoundRoom cfg x past →
        op.PreparesOnly x.key → PreparesWithRoom cfg x past op :=
      fun past op hroom hop r hr => ⟨hop r hr, hroom⟩
    refine Heeds.bind (heeds_setPreparing (K := FoundRoom cfg x) (fun past op hroom hop => ?_)
      (fun _ c hroom => hroom.cons c) h.1 _) fun past _ hprepared => ?_
    · rcases hop with hop | ⟨u, rfl⟩
      · exact preparesWithRoom_of_isQuiet hop
      · refine hown past _ hroom fun r hr => ?_
        simp only [Op.prepares, Bool.and_eq_true, decide_eq_true_eq] at hr
        exact hr.1.symm
    · have hallocate : (allocateQueued cfg x.key x).Issues (Op.PreparesOnly x.key) :=
        Meets.issues (meets_allocateQueued (fun _ _ => (issues_allocateGpuResources _ _ _).meets) x)
      refine Heeds.mono (hallocate.heeds (K := fun past => FoundRoom cfg x past ∧
        (x.key ≠ "" → HasPrepared x.key past)) (fun past op hK hop => hown past op hK.1 hop)
        (fun past op res hK _ => ⟨hK.1.cons _, fun hkey => (hK.2 hkey).append [_]⟩) hprepared)
        (fun past _ hK hkey _ _ _ => hK.2 hkey) fun past _ hK hkey _ _ _ => hK.2 hkey

/-- A sweep that tries a reservation prepares it only if it has found room for it, and it does so
if it is shown enough. -/
theorem heeds_processQueued (cfg : Settings) (x : Attributes) (position : ℕ)
    (spotStatus : SpotStatus) :
    (processQueued cfg position x spotStatus).Heeds (PreparesWithRoom cfg x)
      (fun past _ => Handled cfg x past) (fun past _ => Handled cfg x past) [] := by
  refine Heeds.bind (Q := fun past _ => past = []) ?_ fun past _ _ => heeds_checks
    fun past available onOneNode ready hfound => ?_
  · unfold required
    split
    · exact heeds_pure rfl
    · rename_i hmissing
      refine heeds_throw fun hkey => absurd ?_ hkey
      simp [Attributes.key, Attributes.text, hmissing]
  split
  · have hroom : FoundRoom cfg x past := fun κ hκ => hfound (.atMost κ) hκ ‹_›
    exact Heeds.bind (heeds_startQueued hroom available) fun past _ h => heeds_pure h
  · rename_i hnone
    have hhandled : Handled cfg x past := fun _ κ hκ hroom =>
      absurd (hfound (.atLeast κ) hκ hroom) hnone
    exact (preparesNone_updateQueued cfg x.key x position available spotStatus).heeds
      (K := Handled cfg x) (fun past op _ hop r hr => by rw [hop r] at hr; cases hr)
      (fun past op res h _ => h.append [_]) hhandled

end One

/-! ### The sweep -/

/-- A reservation among those that a sweep goes over is prepared: room has been found for it, and
those before it have been tried before. -/
def StartedInTurn (cfg : Settings) (sorted : List Attributes)
    (start : List (Program.Event Op Op.Res)) (r : String)
    (past : List (Program.Event Op Op.Res)) : Prop :=
  ∃ earlier x later since done, sorted = earlier ++ x :: later ∧ past = since ++ done ∧
    start <:+ done ∧ x.key = r ∧ FoundRoom cfg x since ∧ ∀ y ∈ earlier, Handled cfg y done

theorem heeds_sweepLoop (cfg : Settings) (position : ℕ) (spotStatus : SpotStatus)
    (sorted : List Attributes) {before : List Attributes} {past : List (Program.Event Op Op.Res)}
    (hbefore : ∀ y ∈ before, Handled cfg y past) :
    (sweepLoop cfg position spotStatus sorted).Heeds (fun now op => ∀ r, op.prepares r = true →
        StartedInTurn cfg (before ++ sorted) past r now)
      (fun _ _ => True) (fun _ _ => True) past := by
  induction sorted generalizing before past position spotStatus with
  | nil => exact heeds_pure trivial
  | cons x rest ih =>
    have hone := (heeds_processQueued cfg x position spotStatus).since past
    rw [List.nil_append] at hone
    refine Heeds.bind (Heeds.orElseGive (hone.mono_calls fun now op h r hr => ?_) fun _ _ h => h)
      fun now spotStatus' h => ?_
    · obtain ⟨since, hsince, hop⟩ := h
      obtain ⟨hkey, hroom⟩ := hop r hr
      exact ⟨before, x, rest, since, past, rfl, hsince, List.suffix_rfl, hkey.symm, hroom, hbefore⟩
    · obtain ⟨since, rfl, hhandled⟩ := h
      have hall : ∀ y ∈ before ++ [x], Handled cfg y (since ++ past) := by
        intro y hy
        rcases List.mem_append.mp hy with hy | hy
        · exact (hbefore y hy).append since
        · rw [List.mem_singleton.mp hy]
          exact hhandled.append_right past
      refine (ih (position + 1) spotStatus' hall).mono_calls fun now op h r hr => ?_
      obtain ⟨earlier, y, later, since', done, hsorted, hnow, hstart, hrest⟩ := h r hr
      exact ⟨earlier, y, later, since', done, by simpa using hsorted, hnow,
        (List.suffix_append since past).trans hstart, hrest⟩

/-- Whoever a sweep prepares is among those that it has listed, in the order of creation, and it
has tried all that come before. -/
theorem heeds_sweep (cfg : Settings) :
    (processScheduledQueueManagement cfg).Heeds (fun past op => ∀ r, op.prepares r = true →
      ∃ now items start, Swept now items start ∧
        sortable (items.filter (isOldEnough now.floor)) = true ∧
        StartedInTurn cfg ((items.filter (isOldEnough now.floor)).mergeSort olderFirst) start r
          past)
      (fun _ _ => True) (fun _ _ => True) [] := by
  have hquiet : ∀ {op : Op} {r : String} {Q : Prop}, op.IsQuiet = true → op.prepares r = true → Q :=
    fun hop hr => by simp [Op.not_prepares_of_isQuiet hop] at hr
  refine Heeds.bind (Q := fun past now => past = [⟨.epoch, now⟩])
    (heeds_request (fun r hr => hquiet rfl hr) (fun now a ha => ?_) fun _ _ h => by cases h)
    fun past now hpast => ?_
  · obtain rfl : now = a := Except.ok.inj ha
    rfl
  subst hpast
  refine Heeds.bind (Q := fun past queued => Swept now queued past ∨ queued = [])
    (Heeds.orElseGive (E := fun _ _ => True)
      (heeds_request (fun r hr => hquiet rfl hr) (fun res items hitems => ?_) fun _ _ _ => trivial)
      fun _ _ _ => .inr rfl) fun past queued hqueued => ?_
  · obtain rfl : res = .ok items := hitems
    exact .inl ⟨[], rfl⟩
  dsimp only
  split
  · exact heeds_pure trivial
  · rename_i hold
    have hswept : Swept now queued past := by
      refine hqueued.resolve_right ?_
      rintro rfl
      exact hold rfl
    refine Heeds.bind (Q := fun past _ => Swept now queued past) (Heeds.orElseGive
      (E := fun past _ => Swept now queued past) (heeds_request (fun r hr => hquiet rfl hr)
        (fun _ _ _ => hswept.cons _) fun _ _ _ => hswept.cons _) fun _ _ h => h)
      fun past _ hswept => ?_
    unfold sortQueued
    split
    · refine Heeds.bind (Q := fun past' sorted => past' = past ∧
        sorted = (queued.filter (isOldEnough now.floor)).mergeSort olderFirst)
        (heeds_pure ⟨rfl, rfl⟩) fun past' sorted h => ?_
      obtain ⟨rfl, rfl⟩ := h
      have hnone : ∀ y ∈ ([] : List Attributes), Handled cfg y past' := by simp
      exact (heeds_sweepLoop cfg 1 none _ hnone).mono_calls
        fun now' op h r hr => ⟨now, queued, past', hswept, ‹_›, h r hr⟩
    · exact Heeds.bind (Q := fun _ _ => False) (heeds_throw trivial) fun _ _ h => h.elim

end CiInfra.GpuDev
