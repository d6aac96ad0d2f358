import CiInfra.GpuDev.FailedClaims

/-!
# Messages that are delivered again

The queue may deliver a reservation message more than once, also while an earlier delivery is
being processed. The guard on the record keeps out deliveries of what has been terminated, and
no others. A delivery does no harm if the reservation had no pod and was not active when it began,
nobody else has given it a pod or made it active since, and no claim that has taken a pod misses.
-/

namespace CiInfra.GpuDev

open Interaction Fallible

/-- The pod that a call gives to the reservation that is processed: it takes it out of the pool
or creates it. -/
def Op.given : Op → Option String
  | createPod name _ => some name
  | op => op.taken

theorem Op.given_of_taken {op : Op} {p : String} (h : op.taken = some p) : op.given = some p := by
  cases op <;> first | exact h | cases h

/-- The update names an attribute. -/
def Update.names (name : String) : Update → Bool
  | set fields => fields.any fun f => f.1 = name
  | append other _ => other = name

/-- The statuses before a reservation is active, and the one that it fails with. -/
def inactiveStatuses : List String := ["pending", "preparing", "queued", "failed"]

/-- The call replaces the record, gives it an inactive status or writes when the reservation was
launched or expires. -/
def Op.resets (r : String) : Op → Bool
  | putItem item _ => item.key = r
  | updateItem id u => id = r && (u.names "launched_at" || u.names "expires_at" ||
    match u.status with
    | some (.text s) => inactiveStatuses.contains s
    | _ => false)
  | _ => false

namespace World

/-- The pod is running, or about to. -/
def runs (w : World) (p : String) : Bool := (w.pods.lookup p).any Pod.isRunningOrPending

/-- The record of the reservation has a status. -/
def hasStatus (w : World) (r s : String) : Bool :=
  (w.table.get r).any fun item => item.isOneOf "status" [s]

/-- The record of the reservation is active. -/
def isActive (w : World) (r : String) : Bool := w.hasStatus r "active"

/-- An attribute of the record of a reservation. -/
def recorded (w : World) (r name : String) : Option Value := (w.table.get r).bind (· name)

end World

/-- What is kept of an active record: it is not made inactive, and its times stay. -/
structure KeepsStart (r : String) (w w' : World) : Prop where
  status : ∀ s ∈ inactiveStatuses, w'.hasStatus r s = false
  launched : w'.recorded r "launched_at" = w.recorded r "launched_at"
  expires : w'.recorded r "expires_at" = w.recorded r "expires_at"

section Deliveries

variable {ι : Type}

/-- The pod that the reservation is given: by a call of a delivery that is answered as gone through
or has been applied although it is not, or its own pod by the surroundings. -/
def givenPod (r : String) (e : Occurrence ι) : Option String :=
  match e.call with
  | some (_, ⟨op, res⟩) => op.given.filter fun p =>
    op.wentThrough res || !e.before.isGraduated p && e.after.isGraduated p
  | none => if !e.before.runs (podNameOf r) && e.after.runs (podNameOf r) then some (podNameOf r)
    else none

/-- The pods of the reservation, its own pod included if it ran in the world `w` at the beginning:
those that it has been given, as far as they have run ever since. -/
def podsOf (r : String) (w : World) : List (Occurrence ι) → List String
  | [] => if w.runs (podNameOf r) then [podNameOf r] else []
  | e :: past => ((givenPod r e).toList ++ podsOf r w past).filter fun p => e.after.runs p

/-- At any time at most one pod runs for the reservation. -/
def OnePod (r : String) (w : World) (es : List (Occurrence ι)) : Prop :=
  ∀ later earlier, es = later ++ earlier →
    ∀ p ∈ podsOf r w earlier, ∀ q ∈ podsOf r w earlier, p = q

/-- The reservation becomes active. -/
def activates (r : String) (e : Occurrence ι) : Bool := !e.before.isActive r && e.after.isActive r

variable [DecidableEq ι]

/-- Somebody else makes the reservation active. -/
def othersActivate (r : String) (i : ι) (e : Occurrence ι) : Bool :=
  (e.callOf i).isNone && activates r e

/-- The delivery has made the reservation active, and nobody else has since. -/
def MadeActive (r : String) (i : ι) : List (Occurrence ι) → Prop :=
  LookedSince (fun _ d => (d.callOf i).isSome = true ∧ activates r d = true)
    fun d => othersActivate r i d = true

/-- A delivery leaves a reservation alone that another has made active. -/
def SparesActive (r : String) (es : List (Occurrence ι)) : Prop :=
  ∀ later e earlier i c, es = later ++ e :: earlier → e.call = some (i, c) →
    e.before.isActive r = true → ¬ MadeActive r i earlier → KeepsStart r e.before e.after

/-- The first call of a delivery. -/
def beginsDelivery (i : ι) (past : List (Occurrence ι)) (e : Occurrence ι) : Bool :=
  (e.callOf i).isSome && past.all fun d => (d.callOf i).isNone

/-- A delivery begins while the reservation has no other pod than `p`. -/
def beginsAlone (r : String) (w : World) (i : ι) (p : String) (past : List (Occurrence ι))
    (e : Occurrence ι) : Bool :=
  beginsDelivery i past e && (podsOf r w past).all (· = p)

/-- A delivery begins while the reservation is not active. -/
def beginsInactive (r : String) (i : ι) (past : List (Occurrence ι)) (e : Occurrence ι) : Bool :=
  beginsDelivery i past e && !e.before.isActive r

/-- Somebody else gives the reservation another pod than `p`. -/
def othersGive (r : String) (i : ι) (p : String) (e : Occurrence ι) : Bool :=
  (e.callOf i).isNone && (givenPod r e).any (· ≠ p)

/-- A pod is given by a delivery that began while the reservation had no other, and nobody else has
given it another since; a claim that has taken a pod does not go on to create one; the surroundings
start the pod of the reservation only if it has no other; and the record is reset by a delivery that
began while it was not active, and nobody else has made it active since. -/
structure DeliversInTime (r : String) (w : World) (past : List (Occurrence ι)) (e : Occurrence ι) :
    Prop where
  gives : ∀ c ∈ e.call, ∀ p ∈ givenPod r e,
    LookedSince (fun past d => beginsAlone r w c.1 p past d = true)
      (fun d => othersGive r c.1 p d = true) past
  misses : ∀ c ∈ e.call, ∀ p ∈ (givenPod r e).filter fun _ => c.2.1.taken.isNone, ∀ d ∈ past,
    ∀ t ∈ d.callOf c.1, ∀ q ∈ t.1.taken, q ∈ podsOf r w past → q = p
  starts : e.call.isNone = true → ∀ p ∈ givenPod r e, ∀ q ∈ podsOf r w past, q = p
  resets : ∀ c ∈ e.call, c.2.1.resets r = true →
    LookedSince (fun past d => beginsInactive r c.1 past d = true)
      (fun d => othersActivate r c.1 d = true) past

instance DeliversInTime.decidable (r : String) (w : World) (past : List (Occurrence ι))
    (e : Occurrence ι) : Decidable (DeliversInTime r w past e) :=
  decidable_of_iff
    ((∀ c ∈ e.call, ∀ p ∈ givenPod r e,
      LookedSince (fun past d => beginsAlone r w c.1 p past d = true)
        (fun d => othersGive r c.1 p d = true) past) ∧
    (∀ c ∈ e.call, ∀ p ∈ (givenPod r e).filter fun _ => c.2.1.taken.isNone, ∀ d ∈ past,
      ∀ t ∈ d.callOf c.1, ∀ q ∈ t.1.taken, q ∈ podsOf r w past → q = p) ∧
    (e.call.isNone = true → ∀ p ∈ givenPod r e, ∀ q ∈ podsOf r w past, q = p) ∧
    ∀ c ∈ e.call, c.2.1.resets r = true →
      LookedSince (fun past d => beginsInactive r c.1 past d = true)
        (fun d => othersActivate r c.1 d = true) past)
    ⟨fun h => ⟨h.1, h.2.1, h.2.2.1, h.2.2.2⟩, fun h => ⟨h.gives, h.misses, h.starts, h.resets⟩⟩

end Deliveries

/-! ### One pod -/

section Pods

variable {ι : Type} {es later earlier : List (Occurrence ι)} {r q : String} {w : World}

/-- A pod that runs was given earlier, or it has been given since. -/
theorem mem_podsOf_append (h : q ∈ podsOf r w (later ++ earlier)) :
    q ∈ podsOf r w earlier ∨ ∃ d ∈ later, givenPod r d = some q := by
  induction later with
  | nil => exact Or.inl h
  | cons d later ih =>
    rcases List.mem_append.mp (List.mem_filter.mp h).1 with hgiven | hpast
    · exact Or.inr ⟨d, List.mem_cons_self, Option.mem_toList.mp hgiven⟩
    · rcases ih hpast with hearlier | ⟨d', hd', hgiven⟩
      · exact Or.inl hearlier
      · exact Or.inr ⟨d', List.mem_cons_of_mem _ hd', hgiven⟩

/-- There is one pod at most if each pod that is given is the only one. -/
theorem onePod_of_given
    (h : Throughout (fun past e => ∀ p ∈ givenPod r e, ∀ q ∈ podsOf r w past, q = p) es) :
    OnePod r w es := by
  rintro later earlier rfl
  have hearlier := h.earlier
  clear h
  induction earlier with
  | nil =>
    simp only [podsOf]
    split <;> simp
  | cons e past ih =>
    obtain ⟨hgiven, hpast⟩ := hearlier
    intro p hp q hq
    replace hp := List.mem_append.mp (List.mem_filter.mp hp).1
    replace hq := List.mem_append.mp (List.mem_filter.mp hq).1
    cases he : givenPod r e with
    | none =>
      simp only [he, Option.toList_none, List.not_mem_nil, false_or] at hp hq
      exact ih hpast p hp q hq
    | some t =>
      have hsame : ∀ s, s ∈ (givenPod r e).toList ∨ s ∈ podsOf r w past → s = t := by
        rintro s (hs | hs)
        · rw [he] at hs
          simpa using hs
        · exact hgiven t he s hs
      rw [hsame p hp, hsame q hq]

end Pods

/-- A call that takes a pod out of the pool is the first by which the delivery gives one. -/
def TakesFirst (past : List (Program.Event Op Op.Res)) (op : Op) : Prop :=
  op.taken.isSome = true → ∀ c ∈ past, c.1.given = none

section Calls

variable {cfg : Settings} {body : Attributes} {past : List (Program.Event Op Op.Res)}

theorem Op.LooksOnly.given {op : Op} (hop : op.LooksOnly) : op.given = none := by
  cases op <;> first | rfl | cases hop

theorem Op.IsFor.taken {r : String} {puts : Attributes → Prop} {op : Op} (hop : op.IsFor r puts) :
    op.taken = none := by
  cases op <;> first | rfl | cases hop

/-- What takes no pod may come at any time. -/
theorem heeds_takesNone {α : Type} {p : Lambda α} (h : p.Issues fun op => op.taken = none) :
    p.Heeds TakesFirst (fun _ _ => True) (fun _ _ => True) past := by
  refine h.heeds (K := fun _ => True) (fun _ op _ hop htaken => ?_) (fun _ _ _ _ _ => trivial)
    trivial
  simp [hop] at htaken

/-- What only looks gives no pod. -/
theorem heeds_looks {α : Type} {p : Lambda α} (h : p.Issues Op.LooksOnly)
    (hpast : ∀ c ∈ past, c.1.given = none) :
    p.Heeds TakesFirst (fun past _ => ∀ c ∈ past, c.1.given = none) (fun _ _ => True) past := by
  refine Heeds.mono (h.heeds (K := fun past => ∀ c ∈ past, c.1.given = none)
    (fun _ _ hK _ _ => hK) (fun _ _ _ hK hop => ?_) hpast) (fun _ _ h => h) fun _ _ _ => trivial
  exact List.forall_mem_cons.mpr ⟨hop.given, hK⟩

theorem heeds_claimWarmPod (hpast : ∀ c ∈ past, c.1.given = none) :
    (claimWarmPod cfg body).Heeds TakesFirst (fun _ _ => True) (fun _ _ => True) past := by
  refine (heeds_looks (issues_intOf _ _ _) hpast).bind fun past gpuCount hpast => ?_
  split
  · exact heeds_pure trivial
  refine (heeds_looks (issues_getGithubPublicKey (fun _ user hkey => ⟨user, hkey, rfl⟩) _)
    hpast).bind fun past key hpast => ?_
  split
  · exact heeds_pure trivial
  refine (heeds_looks (issues_quiet rfl) hpast).bind fun past pods hpast => ?_
  split
  · exact heeds_pure trivial
  · refine Heeds.bind (Q := fun _ _ => True) (heeds_request (fun _ => hpast) (fun _ _ _ => trivial)
      fun _ _ _ => trivial) fun _ _ _ => heeds_takesNone ?_
    exact (issues_recordClaim _ _).mono fun _ hop => hop.taken

/-- A delivery takes at most one pod out of the pool, and none after it has created one. -/
theorem heeds_handleReservationMessage (hbody : body.NamesReservation)
    (hsingle : body.truthy "is_multinode" = false) :
    (handleReservationMessage cfg body).Heeds TakesFirst (fun _ _ => True) (fun _ _ => True)
      [] := by
  have hrest : ∀ (claimed : Bool) past, Heeds TakesFirst (fun _ _ => True) (fun _ _ => True) past
      (if claimed = true then return true else processReservationRequest cfg body
        : Lambda Bool) := by
    intro claimed past
    split
    · exact heeds_pure trivial
    · exact heeds_takesNone ((issues_coldPath hbody.1 hsingle).mono fun _ hop => hop.taken)
  unfold handleReservationMessage
  dsimp only
  split
  · exact Heeds.bind (Q := fun _ _ => True) (Heeds.orElseGive (E := fun _ _ => True)
      (heeds_claimWarmPod (by simp)) fun _ _ _ => trivial) fun past claimed _ => hrest claimed past
  · exact Heeds.bind (Q := fun _ _ => True) (heeds_pure trivial) fun past claimed _ =>
      hrest claimed past

/-- The call creates no pod but that of the reservation. -/
def Op.CreatesOwn (r : String) (op : Op) : Prop := op.taken = none → ∀ p ∈ op.given, p = podNameOf r

theorem createsOwn_handleReservationMessage (hbody : body.NamesReservation)
    (hsingle : body.truthy "is_multinode" = false) :
    (handleReservationMessage cfg body).Issues (Op.CreatesOwn body.key) := by
  refine (meets_handleReservationMessage (issues_tryClaimWarmPod.mono fun op hop => ?_).meets
    ((issues_coldPath hbody.1 hsingle).mono fun op hop => ?_).meets).issues
  · intro hnone p hp
    cases op <;> first | cases hop; done | cases hp | cases hnone.symm.trans hp
  · intro hnone p hp
    cases op with
    | createPod name pod =>
      cases hp
      exact hop
    | _ => cases hnone.symm.trans hp

end Calls

/-! ### An active record -/

theorem World.hasStatus_iff {w : World} {r s : String} :
    w.hasStatus r s = true ↔
      ∃ item, w.table.get r = some item ∧ item "status" = some (.text s) := by
  simp [hasStatus, Option.any_eq_true, Attributes.isOneOf_singleton]

/-- A record has one status only. -/
theorem World.hasStatus_eq_false {w : World} {r s s' : String} (h : w.hasStatus r s = true)
    (hne : s' ≠ s) : w.hasStatus r s' = false := by
  rw [Bool.eq_false_iff]
  intro h'
  obtain ⟨item, hitem, hs⟩ := hasStatus_iff.mp h
  obtain ⟨item', hitem', hs'⟩ := hasStatus_iff.mp h'
  cases hitem.symm.trans hitem'
  cases hs.symm.trans hs'
  exact hne rfl

theorem ne_active_of_inactive {s : String} (h : s ∈ inactiveStatuses) : s ≠ "active" := by
  rintro rfl
  revert h
  decide

/-- An update leaves the attributes alone that it does not name. -/
theorem Update.apply_of_not_names {u : Update} {item item' : Attributes} {name : String}
    (h : u.apply item = some item') (hname : u.names name = false) : item' name = item name := by
  cases u with
  | set fields =>
    cases h
    have hnone : Attributes.ofList fields name = none :=
      Attributes.ofList_eq_none fun f hf heq => by
      simp only [names, List.any_eq_false, decide_eq_true_eq] at hname
      exact hname f hf heq
    rw [Attributes.overlay_apply, hnone]
    rfl
  | append other v =>
    have hne : name ≠ other := fun heq => by simp [names, heq] at hname
    have hset : ∀ v, item.set other v name = item name := fun v => Function.update_of_ne hne _ _
    simp only [apply] at h
    split at h <;> cases h
    · exact hset _
    · exact hset _

/-- A record that is not touched keeps what it has. -/
theorem keepsStart_of_get {r : String} {w w' : World} (hactive : w.isActive r = true)
    (h : w'.table.get r = w.table.get r) : KeepsStart r w w' := by
  have hafter : w'.hasStatus r "active" = true := by
    rw [World.hasStatus, h]
    exact hactive
  exact ⟨fun s hs => World.hasStatus_eq_false hafter (ne_active_of_inactive hs),
    by rw [World.recorded, World.recorded, h], by rw [World.recorded, World.recorded, h]⟩

/-- A lawful update that does not reset an active record keeps its start. -/
theorem Update.keepsStart {u : Update} {r : String} {w : World} {t' : Table} (hu : u.IsLawful)
    (h : w.table.update r u = some t') (hactive : w.isActive r = true)
    (hresets : (Op.updateItem r u).resets r = false) :
    KeepsStart r w { w with table := t' } := by
  obtain ⟨item', happly, rfl⟩ := Table.update_eq_some h
  obtain ⟨item, hitem, hstatus⟩ := World.hasStatus_iff.mp hactive
  rw [hitem, Option.getD_some] at happly
  simp only [Op.resets, decide_true, Bool.true_and, Bool.or_eq_false_iff] at hresets
  obtain ⟨⟨hlaunched, hexpires⟩, hwritten⟩ := hresets
  have hafter : ({ w with table := w.table.store r item' } : World).table.get r = some item' :=
    Table.get_store_self _ _ _
  refine ⟨fun s hs => ?_, ?_, ?_⟩
  · rcases hu.status with hneutral | ⟨s', -, hs'⟩
    · exact World.hasStatus_eq_false (World.hasStatus_iff.mpr
        ⟨item', hafter, (u.apply_neutral happly hneutral).1.trans hstatus⟩)
        (ne_active_of_inactive hs)
    · refine World.hasStatus_eq_false (World.hasStatus_iff.mpr
        ⟨item', hafter, Update.apply_writes happly hs'⟩) ?_
      rintro rfl
      simp [hs', hs] at hwritten
  · simpa [World.recorded, hitem] using Update.apply_of_not_names happly hlaunched
  · simpa [World.recorded, hitem] using Update.apply_of_not_names happly hexpires

/-- A lawful call that does not reset an active record keeps its start. -/
theorem Op.IsLawful.keepsStart {op : Op} {w w' : World} {res : op.Res} {r : String}
    (hop : op.IsLawful) (hr : isReservationKey r = true) (h : op.Answers w res w')
    (hactive : w.isActive r = true) (hresets : op.resets r = false) : KeepsStart r w w' := by
  rcases h.cases with rfl | heffect
  · exact keepsStart_of_get hactive rfl
  cases op with
  | updateItem id u =>
    obtain ⟨t', ht, rfl⟩ := World.withTable_eq_some heffect
    by_cases hid : id = r
    · subst hid
      exact Update.keepsStart hop ht hactive hresets
    · obtain ⟨item', -, rfl⟩ := Table.update_eq_some ht
      exact keepsStart_of_get hactive (Table.get_store_of_ne _ (Ne.symm hid) _)
  | putItem item condition =>
    obtain ⟨t', ht, rfl⟩ := World.withTable_eq_some heffect
    obtain ⟨-, rfl⟩ := Table.put_eq_some ht
    have hkey : item.key ≠ r := by simpa [Op.resets] using hresets
    exact keepsStart_of_get hactive (Table.get_store_of_ne _ hkey.symm _)
  | deleteItem id =>
    obtain ⟨t', ht, rfl⟩ := World.withTable_eq_some heffect
    cases ht
    refine keepsStart_of_get hactive (Table.get_delete_of_ne _ ?_)
    rintro rfl
    cases hr.symm.trans hop
  | createPod name p =>
    obtain ⟨-, rfl⟩ := World.createPod_eq_some heffect
    exact keepsStart_of_get hactive rfl
  | patchPod name labels annotations =>
    obtain ⟨p, -, rfl⟩ := World.modifyPod_eq_some heffect
    exact keepsStart_of_get hactive rfl
  | deletePod name =>
    obtain ⟨p, -, rfl⟩ := World.modifyPod_eq_some heffect
    exact keepsStart_of_get hactive rfl
  | _ => cases heffect; exact keepsStart_of_get hactive rfl

/-- The delivery has made active what it has found inactive, if nobody else has since. -/
theorem madeActive_of_lookedSince {ι : Type} [DecidableEq ι] {S T : System ι Op Op.Res Unit World}
    {env : World → World → Prop} {es : List (Occurrence ι)} {r : String} {i : ι}
    (h : History Op.Answers env S es T)
    (hsince : LookedSince (fun past d => beginsInactive r i past d = true)
      (fun d => othersActivate r i d = true) es)
    (hactive : T.state.isActive r = true) : MadeActive r i es := by
  induction es generalizing T with
  | nil => exact hsince.elim
  | cons e past ih =>
    obtain ⟨U, hU, hbefore, hafter⟩ := h.tail
    obtain ⟨htouch, hlooked⟩ := hsince
    refine ⟨htouch, ?_⟩
    rw [← hafter] at hactive
    cases hfound : e.before.isActive r with
    | false =>
      have hactivates : activates r e = true := by simp [activates, hfound, hactive]
      exact Or.inl ⟨by
        simpa [othersActivate, hactivates, Option.isSome_iff_ne_none] using htouch, hactivates⟩
    | true =>
      rcases hlooked with hlook | hearlier
      · simp [beginsInactive, hfound] at hlook
      · exact Or.inr (ih hU hearlier (hbefore ▸ hfound))

/-! ### Every run of deliveries -/

/-- What surrounds the deliveries is everything else that runs. -/
def AnyChange (_ _ : World) : Prop := True

section Runs

variable {cfg : Settings} {ι : Type} [DecidableEq ι] {body : Attributes} {w : World}
  {T : System ι Op Op.Res Unit World} {es later earlier : List (Occurrence ι)} {e : Occurrence ι}

omit [DecidableEq ι] in
theorem given_of_givenPod {r p : String} {c : ι × Program.Event Op Op.Res}
    (h : givenPod r e = some p) (hcall : e.call = some c) : c.2.1.given = some p := by
  unfold givenPod at h
  rw [hcall] at h
  exact (Option.filter_eq_some_iff.mp h).1

/-- A pod that a delivery gives in time is the only one. -/
theorem only_of_givenPod
    (h : History Op.Answers AnyChange ⟨w, fun _ : ι => (Invocation.message body).program cfg⟩
      (later ++ e :: earlier) T)
    (hbody : body.NamesReservation) (hsingle : body.truthy "is_multinode" = false)
    (hwindow : DeliversInTime body.key w earlier e) {i : ι} {op : Op} {res : op.Res}
    (hcall : e.call = some (i, ⟨op, res⟩)) {p q : String} (hp : givenPod body.key e = some p)
    (hq : q ∈ podsOf body.key w earlier) : q = p := by
  by_contra hne
  have hgiven := given_of_givenPod hp hcall
  obtain ⟨since, d, before, rfl, hbegins, hothers⟩ := (hwindow.gives _ hcall p hp).split
  have honly : ∀ q ∈ podsOf body.key w before, q = p := by
    simpa using (Bool.and_eq_true_iff.mp hbegins).2
  rcases mem_podsOf_append (List.append_cons since d before ▸ hq) with hfound | ⟨x, hx, hxq⟩
  · exact hne (honly q hfound)
  -- The other pod was given by the same delivery.
  obtain ⟨t, hsame⟩ : ∃ t, x.callOf i = some t := by
    cases hcalled : x.callOf i with
    | none => exact (hothers x hx (by simp [othersGive, hcalled, hxq, hne])).elim
    | some t => exact ⟨t, rfl⟩
  have hxcall := Happening.callOf_eq_some.mp hsame
  have hxgiven := given_of_givenPod hxq hxcall
  have hmem : x ∈ since ++ d :: before := by
    rw [List.append_cons]
    exact List.mem_append_left _ hx
  have hown : ∀ c : ι × Program.Event Op Op.Res, ∀ y ∈ later ++ e :: (since ++ d :: before),
      c ∈ y.call → c.2.1.CreatesOwn body.key := fun c y hy hc =>
    h.calls (fun _ => onlyCalls_toItsEnd (createsOwn_handleReservationMessage hbody hsingle)) hy hc
  cases htaken : op.taken with
  | some name =>
    have hheeds : ((Invocation.message body).program cfg).Heeds TakesFirst (fun _ _ => True) [] :=
      Program.Heeds.bind (heeds_handleReservationMessage hbody hsingle) fun _ _ _ => trivial
    have hnone := h.heeds hheeds hcall (by simp [htaken]) t
      (List.mem_filterMap.mpr ⟨x, hmem, hsame⟩)
    cases hxgiven.symm.trans hnone
  | none =>
    have hpod : p = podNameOf body.key := hown _ e (by simp) hcall htaken p hgiven
    cases hxtaken : t.1.taken with
    | some name =>
      have hname : name = q := Option.some.inj ((Op.given_of_taken hxtaken).symm.trans hxgiven)
      exact hne (hwindow.misses _ hcall p (by simp [hp, htaken]) x hmem t hsame q
        (hname ▸ hxtaken) hq)
    | none =>
      have hxpod := hown _ x (by simp [hmem]) hxcall hxtaken q hxgiven
      exact hne (hxpod.trans hpod.symm)

/-- A delivery in time leaves an active record alone that another has made active. -/
theorem keepsStart_of_deliversInTime
    (h : History Op.Answers AnyChange ⟨w, fun _ : ι => (Invocation.message body).program cfg⟩
      (later ++ e :: earlier) T)
    (hbody : body.NamesReservation) (hwindow : DeliversInTime body.key w earlier e) {i : ι}
    {c : Program.Event Op Op.Res} (hcall : e.call = some (i, c))
    (hactive : e.before.isActive body.key = true) (hother : ¬ MadeActive body.key i earlier) :
    KeepsStart body.key e.before e.after := by
  obtain ⟨U, hU, hbefore⟩ := h.before
  have hmem : e ∈ later ++ e :: earlier := by simp
  have hlawful := h.calls (fun _ => (Invocation.message body).lawful cfg) hmem hcall
  refine hlawful.keepsStart hbody.2 (h.served hmem hcall) hactive ?_
  by_contra hresets
  exact hother (madeActive_of_lookedSince hU
    (hwindow.resets _ hcall (by simpa using hresets)) (hbefore ▸ hactive))

end Runs

/-! ### A message that is delivered again -/

/-- Two idle pods, and an empty table. -/
def twoWarmPods : World :=
  ⟨∅, AList.insert "gpu-dev-cpu-x86-4f8c1e" idleWarmPod
    (AList.insert "gpu-dev-cpu-x86-9b2d07" idleWarmPod ∅), [], ∅⟩

/-- A message that is delivered twice, before either delivery has begun. -/
def beforeDeliveries (w : World) : System Bool Op Op.Res Unit World :=
  ⟨w, fun _ => (Invocation.message (cpuRequest "r1")).program .usual⟩

/-- The first delivery queues the request; then the pool is filled, and the second claims a pod. -/
def claimedLater : List (Turn Bool World) :=
  List.replicate 30 (.call false) ++
    .env (fun w => { w with pods := twoWarmPods.pods }) :: List.replicate 25 (.call true)

/-- The second delivery begins after the first has ended with an active record. -/
def claimedAgain : List (Turn Bool World) :=
  List.replicate 25 (.call false) ++ List.replicate 7 (.call true)

theorem claimedAgain_ne_nil :
    (play Script.fine.serve (beforeDeliveries twoWarmPods) claimedAgain).1 ≠ [] := by
  decide +kernel

end CiInfra.GpuDev
