import CiInfra.GpuDev.SweepOrder

/-!
# First come, first served

The sweep starts queued reservations in the order of their creation, but a message that finds room
is started at once, whoever waits in the queue, and a sweep goes by a listing and by what room
there is when it comes to a reservation. Among equal requests the first comes first if no message
is started past an earlier one that is queued, and if the sweeps that start one have listed every
earlier one, have met no failure on the way, and no room has appeared in between.
-/

namespace CiInfra.GpuDev

open Interaction Fallible

/-! ### The order of requests -/

/-- One reservation was created before another. The texts are ISO dates of one form, which are
in the order of time. -/
def createdEarlier (a b : Attributes) : Bool :=
  match a "created_at", b "created_at" with
  | some (.text s), some (.text t) => s < t
  | some (.number s), some (.number t) => s < t
  | _, _ => false

/-- The reservation asks for so many GPUs of a type. -/
def Attributes.asksFor (x : Attributes) (gpuType : String) (gpuCount : ℕ) : Bool :=
  x.gpuType = gpuType && x.gpuCount = gpuCount

theorem Attributes.asksFor_iff (x : Attributes) (gpuType : String) (gpuCount : ℕ) :
    x.asksFor gpuType gpuCount = true ↔ x.gpuType = gpuType ∧ x.gpuCount = gpuCount := by
  simp [asksFor]

/-- What was created before another does not come after it in the queue. -/
theorem olderFirst_of_createdEarlier {a b : Attributes} (h : createdEarlier a b = true) :
    olderFirst b a = false := by
  unfold createdEarlier at h
  split at h
  · rename_i s t hs ht
    have hlt : s < t := of_decide_eq_true h
    simp [olderFirst, hs, ht, createdBefore, Attributes.text, hlt]
  · rename_i s t hs ht
    have hlt : s < t := of_decide_eq_true h
    simp [olderFirst, hs, ht, hlt]
  · cases h

theorem not_createdEarlier_self (a : Attributes) : ¬ createdEarlier a a = true := by
  unfold createdEarlier
  split <;> simp_all

/-- Of two requests for the same, the first is queued and was created before the second. -/
def World.isAhead (w : World) (gpuType : String) (gpuCount : ℕ) (r₁ r₂ : String) : Bool :=
  match w.table.get r₁, w.table.get r₂ with
  | some a, some b => a.isOneOf "status" ["queued"] && a.asksFor gpuType gpuCount &&
      b.asksFor gpuType gpuCount && createdEarlier a b
  | _, _ => false

section Histories

variable {ι : Type}

/-- The reservation is moved to preparing. -/
def movesToPreparing (r : String) (e : Occurrence ι) : Bool :=
  e.call.any (·.2.1.prepares r) && e.before.isWaiting r && !e.after.isWaiting r

/-- The second reservation is moved to preparing while the first, which is ahead of it, waits as it
always has. -/
def overtakes (gpuType : String) (gpuCount : ℕ) (r₁ r₂ : String) (past : List (Occurrence ι))
    (e : Occurrence ι) : Bool :=
  movesToPreparing r₂ e && e.before.isAhead gpuType gpuCount r₁ r₂ &&
    past.all fun d => d.before.isWaiting r₁ && d.after.isWaiting r₁

/-- Of two requests for the same, the second is never moved to preparing before the first. -/
def FirstComeFirstServed (gpuType : String) (gpuCount : ℕ) (r₁ r₂ : String)
    (es : List (Occurrence ι)) : Prop :=
  ∀ later e earlier, es = later ++ e :: earlier →
    overtakes gpuType gpuCount r₁ r₂ earlier e = false

instance (gpuType : String) (gpuCount : ℕ) (r₁ r₂ : String) (es : List (Occurrence ι)) :
    Decidable (FirstComeFirstServed gpuType gpuCount r₁ r₂ es) :=
  decidable_of_iff (Throughout (fun past e => overtakes gpuType gpuCount r₁ r₂ past e = false) es)
    ⟨fun h _ _ _ hsplit => (hsplit ▸ h).at, Throughout.intro⟩

/-- Room for a type appears on a node, or the schedulable nodes of the type become others. -/
def addsRoom (gpuType : String) (e : Occurrence ι) : Prop :=
  ¬ e.after.capacity gpuType ≤ e.before.capacity gpuType

instance (gpuType : String) (e : Occurrence ι) : Decidable (addsRoom gpuType e) :=
  inferInstanceAs (Decidable (¬ _))

variable [DecidableEq ι]

/-- A sweep lists the queue with both reservations, the first ahead of the second and old enough
to be started. -/
def listsAhead (gpuType : String) (gpuCount : ℕ) (r₁ r₂ : String) (i : ι)
    (past : List (Occurrence ι)) (e : Occurrence ι) : Bool :=
  match traceOf i past, e.call with
  | [⟨.epoch, now⟩], some (j, ⟨.find (.status "queued"), .ok items⟩) => j = i && r₁ ≠ "" &&
    items.any fun x => x.key = r₁ && isOldEnough now.floor x && x.asksFor gpuType gpuCount &&
      items.all fun y => y.key ≠ r₂ || y.asksFor gpuType gpuCount && createdEarlier x y
  | _, _ => false

/-- Room for the type appears, or a call of a sweep misleads it about the first reservation. -/
def disturbs (gpuType : String) (r₁ : String) (i : ι) (e : Occurrence ι) : Prop :=
  addsRoom gpuType e ∨ ∃ c ∈ e.call, c.1 = i ∧ c.2.1.misleads r₁ c.2.2 = true

instance (gpuType : String) (r₁ : String) (i : ι) (e : Occurrence ι) :
    Decidable (disturbs gpuType r₁ i e) :=
  inferInstanceAs (Decidable (_ ∨ ∃ c ∈ e.call, c.1 = i ∧ c.2.1.misleads r₁ c.2.2 = true))

/-- No message is started past an earlier equal one that is queued; a sweep that starts one has
listed the earlier one ahead of it, and nothing has disturbed it since. -/
structure ServesInOrder (inv : ι → Invocation) (gpuType : String) (gpuCount : ℕ) (r₁ r₂ : String)
    (past : List (Occurrence ι)) (e : Occurrence ι) : Prop where
  admits : ∀ c ∈ e.call, (inv c.1).isSweep = false → movesToPreparing r₂ e = true →
    e.before.isAhead gpuType gpuCount r₁ r₂ = false
  sweeps : ∀ c ∈ e.call, (inv c.1).isSweep = true → movesToPreparing r₂ e = true →
    e.before.isAhead gpuType gpuCount r₁ r₂ = true →
      LookedSince (fun past d => listsAhead gpuType gpuCount r₁ r₂ c.1 past d = true)
        (disturbs gpuType r₁ c.1) past

instance (inv : ι → Invocation) (gpuType : String) (gpuCount : ℕ) (r₁ r₂ : String)
    (past : List (Occurrence ι)) (e : Occurrence ι) :
    Decidable (ServesInOrder inv gpuType gpuCount r₁ r₂ past e) :=
  decidable_of_iff ((∀ c ∈ e.call, (inv c.1).isSweep = false → movesToPreparing r₂ e = true →
      e.before.isAhead gpuType gpuCount r₁ r₂ = false) ∧
    ∀ c ∈ e.call, (inv c.1).isSweep = true → movesToPreparing r₂ e = true →
      e.before.isAhead gpuType gpuCount r₁ r₂ = true →
        LookedSince (fun past d => listsAhead gpuType gpuCount r₁ r₂ c.1 past d = true)
          (disturbs gpuType r₁ c.1) past)
    ⟨fun h => ⟨h.1, h.2⟩, fun h => ⟨h.admits, h.sweeps⟩⟩

end Histories

/-! ### Capacity along a history -/

section Settled

variable {ι : Type} [DecidableEq ι] {S T : System ι Op Op.Res Unit World} {gpuType : String}

/-- Where no room appears there is no more than there was. -/
theorem capacity_le_before {later earlier : List (Occurrence ι)} {g : Occurrence ι}
    (h : History Op.Answers KeepsTable S (later ++ g :: earlier) T)
    (hsettled : ∀ f ∈ later ++ [g], ¬ addsRoom gpuType f) :
    T.state.capacity gpuType ≤ g.before.capacity gpuType := by
  induction later generalizing T with
  | nil =>
    obtain ⟨U, -, -, hafter⟩ := h.tail
    exact hafter ▸ not_not.mp (hsettled g (by simp))
  | cons f later ih =>
    obtain ⟨U, hU, hbefore, hafter⟩ := h.tail
    have hf : f.after.capacity gpuType ≤ f.before.capacity gpuType :=
      not_not.mp (hsettled f (by simp))
    rw [← hafter]
    exact hf.trans (hbefore ▸ ih hU fun d hd => hsettled d (List.mem_cons_of_mem _ hd))

/-- Where no room appears, everything later finds no more than there was in between. -/
theorem exists_capacity {later earlier : List (Occurrence ι)}
    (h : History Op.Answers KeepsTable S (later ++ earlier) T)
    (hsettled : ∀ f ∈ later, ¬ addsRoom gpuType f) :
    ∃ U : System ι Op Op.Res Unit World, History Op.Answers KeepsTable S earlier U ∧
      T.state.capacity gpuType ≤ U.state.capacity gpuType ∧
      ∀ f ∈ later, f.before.capacity gpuType ≤ U.state.capacity gpuType := by
  induction later generalizing T with
  | nil => exact ⟨T, h, le_rfl, by simp⟩
  | cons f later ih =>
    obtain ⟨V, hV, hbefore, hafter⟩ := h.tail
    obtain ⟨hf, hlater⟩ := List.forall_mem_cons.mp hsettled
    obtain ⟨U, hU, hle, hall⟩ := ih hV hlater
    rw [← hbefore] at hle
    rw [← hafter]
    exact ⟨U, hU, (not_not.mp hf).trans hle, List.forall_mem_cons.mpr ⟨hle, hall⟩⟩

end Settled

/-! ### Over a run -/

/-- A reservation that is prepared does not wait. -/
theorem Op.not_isWaiting_of_prepares {w w' : World} {r : String} {u : Update}
    (h : u.prepares = true) (heffect : (Op.updateItem r u).effect w = some w') :
    w'.isWaiting r = false := by
  have hstatus : u.status = some (.text "preparing") := by
    unfold Update.prepares at h
    split at h
    · rename_i s hs
      rw [hs, of_decide_eq_true h]
    · cases h
  obtain ⟨t', ht, rfl⟩ := World.withTable_eq_some heffect
  obtain ⟨item, hitem, rfl⟩ := Table.update_eq_some ht
  have hitemStatus := Update.apply_writes hitem hstatus
  simp [World.isWaiting, Table.status, hitemStatus]

section Runs

variable {ι : Type} [DecidableEq ι] {cfg : Settings} {inv : ι → Invocation} {w : World}
  {T : System ι Op Op.Res Unit World} {es : List (Occurrence ι)} {gpuType r₁ r₂ : String}
  {gpuCount : ℕ}

/-- What a sweep has listed before. -/
theorem listing_of_listsAhead {i : ι} {past : List (Occurrence ι)} {d : Occurrence ι}
    (h : listsAhead gpuType gpuCount r₁ r₂ i past d = true) :
    ∃ now items, traceOf i past = [⟨.epoch, now⟩] ∧
      d.call = some (i, ⟨.find (.status "queued"), .ok items⟩) ∧ r₁ ≠ "" ∧
      ∃ x ∈ items, x.key = r₁ ∧ isOldEnough now.floor x = true ∧
        x.asksFor gpuType gpuCount = true ∧ ∀ y ∈ items, y.key = r₂ →
          y.asksFor gpuType gpuCount = true ∧ createdEarlier x y = true := by
  unfold listsAhead at h
  split at h
  · rename_i now j items htrace hcall
    simp only [Bool.and_eq_true, decide_eq_true_eq, List.any_eq_true, List.all_eq_true,
      Bool.or_eq_true] at h
    obtain ⟨⟨rfl, hne⟩, x, hx, ⟨⟨hkey, hold⟩, hasks⟩, hall⟩ := h
    exact ⟨now, items, htrace, hcall, hne, x, hx, hkey, hold, hasks, fun y hy hykey =>
      (hall y hy).resolve_left fun hnot => hnot hykey⟩
  · cases h

/-- What a sweep has done since its listing, and what it had done up to some moment after. -/
theorem listing_among_done {i : ι} {later' l₂ l₁ earlier' : List (Occurrence ι)}
    {d : Occurrence ι} {now now' : ℚ} {items items' : List Attributes}
    {start : List (Program.Event Op Op.Res)}
    (hsplit : l₂ ++ l₁ = later' ++ d :: earlier') (htrace : traceOf i earlier' = [⟨.epoch, now'⟩])
    (hdcall : d.call = some (i, ⟨.find (.status "queued"), .ok items'⟩))
    (hswept : Swept now items start) (hstart : start <:+ l₁.filterMap (Happening.callOf i)) :
    now = now' ∧ items = items' ∧ ∃ gap, later' = l₂ ++ gap ∧ l₁ = gap ++ d :: earlier' := by
  obtain ⟨rest, hrest⟩ := hswept
  have hbegins : (⟨.epoch, now⟩ :: ⟨.find (.status "queued"), .ok items⟩ :: rest) <+:
      traceOf i l₁ := hrest ▸ List.reverse_prefix.mpr hstart
  have hgap : ∃ gap, later' = l₂ ++ gap ∧ l₁ = gap ++ d :: earlier' := by
    rcases List.append_eq_append_iff.mp hsplit with h | ⟨gap, rfl, hgap⟩
    · exact h
    · cases gap with
      | nil => exact ⟨[], by simp, hgap.symm⟩
      | cons d' gap =>
        -- before the listing only the time has been read
        obtain ⟨-, rfl⟩ := List.cons.inj hgap
        rw [List.append_eq, traceOf_append] at htrace
        have hlength := (hbegins.trans (List.prefix_append _ (traceOf i gap))).length_le
        rw [htrace] at hlength
        simp at hlength
  obtain ⟨gap, rfl, rfl⟩ := hgap
  have hdone : traceOf i (gap ++ d :: earlier') =
      ⟨.epoch, now'⟩ :: ⟨.find (.status "queued"), .ok items'⟩ :: traceOf i gap := by
    rw [traceOf_append, traceOf_cons_of_call hdcall, htrace]
    rfl
  rw [hdone, List.cons_prefix_cons, List.cons_prefix_cons] at hbegins
  obtain ⟨hnow, hitems, -⟩ := hbegins
  cases hnow
  cases hitems
  exact ⟨rfl, rfl, gap, rfl, rfl⟩

omit [DecidableEq ι] in
/-- What a sweep heeds, to its end. -/
theorem heeds_sweepProgram {i : ι} (hsweep : (inv i).isSweep = true) :
    ((inv i).program cfg).Heeds (fun past op => ∀ r, op.prepares r = true →
      ∃ now items start, Swept now items start ∧
        sortable (items.filter (isOldEnough now.floor)) = true ∧
        StartedInTurn cfg ((items.filter (isOldEnough now.floor)).mergeSort olderFirst) start r
          past)
      (fun _ _ => True) [] := by
  rw [Invocation.program_of_isSweep hsweep]
  exact Program.Heeds.bind (heeds_sweep cfg) fun _ _ _ => trivial

/-- Of two reservations in the order of the sweep, the one created earlier comes before. -/
theorem mem_earlier_of_createdEarlier {items earlier later : List Attributes} {a b : Attributes}
    (hsortable : sortable items = true)
    (hsorted : items.mergeSort olderFirst = earlier ++ b :: later) (ha : a ∈ items)
    (hcreated : createdEarlier a b = true) : a ∈ earlier := by
  have hmem : a ∈ earlier ++ b :: later := hsorted ▸ List.mem_mergeSort.mpr ha
  have hpairwise := hsorted ▸ pairwise_olderFirst hsortable
  rcases List.mem_append.mp hmem with hearlier | hmem
  · exact hearlier
  · exfalso
    rcases List.mem_cons.mp hmem with rfl | hlater
    · exact not_createdEarlier_self a hcreated
    · have hafter := List.rel_of_pairwise_cons (List.pairwise_append.mp hpairwise).2.1 hlater
      rw [olderFirst_of_createdEarlier hcreated] at hafter
      cases hafter

/-- As long as no room appears, what is shown is no more than what there was before. -/
theorem admits_atMost {later earlier : List (Occurrence ι)} {S U : System ι Op Op.Res Unit World}
    {i : ι} {r : String} (h : History Op.Answers KeepsTable S (later ++ earlier) T)
    (hless : ∀ f ∈ later, f.before.capacity gpuType ≤ U.state.capacity gpuType) :
    ∀ c ∈ later.filterMap (Happening.callOf i),
      (Bound.atMost (U.state.capacity gpuType)).Admits gpuType r c := by
  intro c hc
  obtain ⟨f, hf, hcall⟩ := List.mem_filterMap.mp hc
  have hserved := h.served (List.mem_append_left _ hf) (Happening.callOf_eq_some.mp hcall)
  exact Capacity.seen_le hserved (hless f hf)

/-- As long as no room appears, what a sweep has been shown since its listing is no less than what
there is, and nothing misleads it if it is not disturbed. -/
theorem admits_atLeast {gap earlier : List (Occurrence ι)} {S U : System ι Op Op.Res Unit World}
    {d : Occurrence ι} {i : ι} {now : ℚ} {items : List Attributes}
    (h : History Op.Answers KeepsTable S (gap ++ d :: earlier) U)
    (htrace : traceOf i earlier = [⟨.epoch, now⟩])
    (hdcall : d.call = some (i, ⟨.find (.status "queued"), .ok items⟩))
    (hundisturbed : ∀ f ∈ gap, ¬ disturbs gpuType r₁ i f) :
    ∀ c ∈ (gap ++ d :: earlier).filterMap (Happening.callOf i),
      (Bound.atLeast (U.state.capacity gpuType)).Admits gpuType r₁ c := by
  intro c hc
  obtain ⟨f, hf, hcall⟩ := List.mem_filterMap.mp hc
  rw [Happening.callOf_eq_some] at hcall
  rcases List.mem_append.mp hf with hgap | hf
  · obtain ⟨g₁, g₂, rfl⟩ := List.append_of_mem hgap
    have hless : U.state.capacity gpuType ≤ f.before.capacity gpuType := by
      refine capacity_le_before (S := S) (T := U) (g := f) (by simpa using h) fun g hg hadds => ?_
      exact hundisturbed g (List.mem_append.mpr ((List.mem_append.mp hg).imp_right fun hg => by
        simp [List.mem_singleton.mp hg])) (.inl hadds)
    refine ⟨Capacity.le_seen (h.served (by simp) hcall) hless, ?_⟩
    by_contra hmisleads
    exact hundisturbed f (by simp) (.inr ⟨_, hcall, rfl, by simpa using hmisleads⟩)
  · rcases List.mem_cons.mp hf with rfl | hearlier
    · cases hdcall.symm.trans hcall
      exact ⟨le_rfl, rfl⟩
    · have hmem : c ∈ traceOf i earlier := History.mem_traceOf.mpr ⟨f, hearlier, hcall⟩
      rw [htrace] at hmem
      cases List.mem_singleton.mp hmem
      exact ⟨le_rfl, rfl⟩

/-- A sweep that has listed a waiting reservation ahead of another, and has not been disturbed
since, does not prepare the other. -/
theorem not_prepares_of_ahead {later earlier : List (Occurrence ι)} {e : Occurrence ι} {i : ι}
    {op : Op} {res : op.Res}
    (h : History Op.Answers KeepsTable ⟨w, fun i => (inv i).program cfg⟩ (later ++ e :: earlier) T)
    (hcall : e.call = some (i, ⟨op, res⟩)) (hsweep : (inv i).isSweep = true)
    (hlooked : LookedSince (fun past d => listsAhead gpuType gpuCount r₁ r₂ i past d = true)
      (disturbs gpuType r₁ i) earlier)
    (hwaiting : ∀ d ∈ earlier, d.after.isWaiting r₁ = true) : op.prepares r₂ = false := by
  by_contra hop
  obtain ⟨now, items, start, hswept, hsortable, before, x₂, after, since, done, hsorted, hpast,
    hstart, hkey₂, hfound, hhandled⟩ :=
    h.heeds (heeds_sweepProgram hsweep) hcall r₂ (by simpa using hop)
  obtain ⟨l₂, l₁, rfl, rfl, rfl⟩ := List.filterMap_eq_append_iff.mp hpast
  obtain ⟨later', d, earlier', hsplit, hlists, hundisturbed⟩ := hlooked.split
  obtain ⟨now', items', htrace, hdcall, hr₁, x₁, hx₁, hkey₁, hold, hasks₁, hahead⟩ :=
    listing_of_listsAhead hlists
  obtain ⟨rfl, rfl, gap, rfl, rfl⟩ :=
    listing_among_done hsplit htrace hdcall hswept hstart
  have hx₂ : x₂ ∈ (items.filter (isOldEnough now.floor)).mergeSort olderFirst := by
    rw [hsorted]
    simp
  rw [List.mem_mergeSort, List.mem_filter] at hx₂
  obtain ⟨hasks₂, hcreated⟩ := hahead x₂ hx₂.1 hkey₂
  have hbefore : x₁ ∈ before :=
    mem_earlier_of_createdEarlier hsortable hsorted (List.mem_filter.mpr ⟨hx₁, hold⟩) hcreated
  obtain ⟨htype₁, hcount₁⟩ := (x₁.asksFor_iff gpuType gpuCount).mp hasks₁
  obtain ⟨rfl, rfl⟩ := (x₂.asksFor_iff gpuType gpuCount).mp hasks₂
  -- what there was between the attempt to start the first and the start of the second
  obtain ⟨V, hV⟩ := h.earlier
  obtain ⟨W, hW, -⟩ := hV.tail
  have hgap : ∀ f ∈ l₂ ++ gap, ¬ disturbs x₂.gpuType r₁ i f := fun f hf =>
    hundisturbed f (List.mem_append_left _ hf)
  obtain ⟨U, hU, -, hless⟩ := exists_capacity hW fun f hf hadds =>
    hgap f (List.mem_append_left _ hf) (.inl hadds)
  have hroom : (U.state.capacity x₂.gpuType).hasRoomFor cfg x₂.gpuType x₂.gpuCount = true :=
    hfound _ (admits_atMost hW hless)
  have hadmits := admits_atLeast hU htrace hdcall fun f hf =>
    hgap f (List.mem_append_right _ hf)
  have hprepared : HasPrepared x₁.key
      ((gap ++ d :: earlier').filterMap (Happening.callOf i)) := by
    refine hhandled x₁ hbefore (hkey₁ ▸ hr₁) (U.state.capacity x₂.gpuType) ?_ ?_
    · rw [htype₁, hkey₁]
      exact hadmits
    · rw [htype₁, hcount₁]
      exact hroom
  rw [hkey₁] at hprepared
  obtain ⟨⟨_, res₁⟩, hc, u, rfl, hprepares⟩ := hprepared
  -- the first has been prepared, since the update has not failed
  have hok : (Op.updateItem r₁ u).wentThrough res₁ = true := by
    have hmisleads := (hadmits _ hc).2
    cases res₁ with
    | ok _ => rfl
    | error _ => simp [Op.misleads, hprepares] at hmisleads
  obtain ⟨f, hf, hfcall⟩ := List.mem_filterMap.mp hc
  have hserved := hU.served hf (Happening.callOf_eq_some.mp hfcall)
  have hnot := Op.not_isWaiting_of_prepares hprepares (Op.effect_of_wentThrough hserved hok)
  rw [hwaiting f (List.mem_append_right _ hf)] at hnot
  cases hnot

end Runs

/-! ### Two equal requests -/

/-- A request for the same, made a minute later. -/
def laterRequest : Attributes :=
  (earlierRequest.set "reservation_id" (.text "0b9e47d8-2f64-4a1b-bb0c-5d2c8e6f7a10")).set
    "created_at" (.text "2026-08-17T16:21:00")

/-- The two requests and a sweep. -/
def equalRequests : Fin 3 → Invocation
  | 0 => .message earlierRequest
  | 1 => .message laterRequest
  | 2 => .sweep

/-- All of them before any has begun. -/
def beforeEqualRequests : System (Fin 3) Op Op.Res Unit World :=
  ⟨⟨∅, ∅, [], ∅⟩, fun i => (equalRequests i).program .usual⟩

/-- The first is queued, and a sweep starts it before the second is made. -/
def madeAfterSweep : List (Turn (Fin 3) World) :=
  List.replicate 24 (.call 0) ++ [nodeComesUp] ++ List.replicate 12 (.call 2) ++
    List.replicate 12 (.call 1)

/-- The second is made when there is a node but no sweep has been made. -/
def madeBeforeSweep : List (Turn (Fin 3) World) :=
  List.replicate 24 (.call 0) ++ [nodeComesUp] ++ List.replicate 24 (.call 1)

end CiInfra.GpuDev
