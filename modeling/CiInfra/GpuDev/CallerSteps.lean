import CiInfra.GpuDev.ReserveCalls

/-!
# What the parties of a call do, and when

The caller sends its message only after its request has been refused, or has not been answered. The
Lambda answers a request last of all, and what it answers is right.
-/

namespace CiInfra.GpuDev

open Interaction Fallible

/-- A call of a party with its answer. -/
abbrev SiteEvent := Program.Event SiteOp SiteRes

/-! ### The caller -/

/-- The caller has sent a request. -/
def Posted (past : List SiteEvent) (payload : Attributes) : Prop :=
  ∃ c ∈ past, c.1 = .inr (.post payload)

/-- The caller has sent a message. -/
def Sent (past : List SiteEvent) (message : Attributes) : Prop :=
  ∃ c ∈ past, c.1 = .inr (.sendMessage message)

/-- The caller has drawn an id. -/
def Drew (past : List SiteEvent) (id : String) : Prop := (⟨.inr .newId, id⟩ : SiteEvent) ∈ past

/-- The caller has waited for the answer to its request, and got this. -/
def Awaited (past : List SiteEvent) (id : String) (response : Option ClaimResponse) : Prop :=
  (⟨.inr (.await id), response⟩ : SiteEvent) ∈ past

/-- The request has been refused, or has not been answered. -/
def Refused (past : List SiteEvent) (id : String) : Prop :=
  ∃ response, Awaited past id response ∧ ∀ reservation, response ≠ some (.claimed reservation)

/-- Every request has been refused, or has not been answered. -/
def Unclaimed (past : List SiteEvent) : Prop :=
  ∀ payload, Posted past payload → Refused past payload.key

/-- The reservation of which a call of the caller loses hold: the one whose request it stops waiting
for, whose message it may not have sent, or that it stops waiting for. -/
def lost : SiteEvent → Option String
  | ⟨.inr (.await id), none⟩ => some id
  | ⟨.inr (.sendMessage message), .error _⟩ => some message.key
  | ⟨.inr (.waitUntilReady id), .error _⟩ => some id
  | _ => none

/-- The caller has lost hold of a reservation. -/
def HasLost (past : List SiteEvent) (r : String) : Prop := ∃ c ∈ past, lost c = some r

/-- When the caller does what: it sends one request at most, before any message, and one message
at most, after its request has been refused. -/
def CallerHeeds (past : List SiteEvent) : SiteOp → Prop
  | .inr (.post payload) =>
    Drew past payload.key ∧ (∀ other, ¬ Posted past other) ∧ ∀ message, ¬ Sent past message
  | .inr (.await id) => ∃ payload, Posted past payload ∧ payload.key = id
  | .inr (.sendMessage message) =>
    Drew past message.key ∧ AsksForOneNode message ∧ (∀ other, ¬ Sent past other) ∧ Unclaimed past
  | .inl _ | .inr .accept | .inr (.respond _) | .inr .receive => False
  | _ => True

/-- What the caller gives back is the reservation that it has claimed, or the one that it has sent
for, unless it has lost hold of it. -/
def GivesBack (past : List SiteEvent) (given : Option String) : Prop :=
  ((∀ message, ¬ Sent past message) ∧ ∃ id reservation,
      Awaited past id (some (.claimed reservation)) ∧ given = some reservation.key) ∨
    Unclaimed past ∧ ∀ message, Sent past message →
      given = some message.key ∨ HasLost past message.key

section Caller

variable {past : List SiteEvent} {c : SiteEvent} {r : String}

theorem posted_cons {payload : Attributes} :
    Posted (c :: past) payload ↔ c.1 = .inr (.post payload) ∨ Posted past payload := by
  simp [Posted]

theorem sent_cons {message : Attributes} :
    Sent (c :: past) message ↔ c.1 = .inr (.sendMessage message) ∨ Sent past message := by
  simp [Sent]

theorem Refused.cons (h : Refused past r) (c : SiteEvent) : Refused (c :: past) r := by
  obtain ⟨response, hmem, hrefused⟩ := h
  exact ⟨response, List.mem_cons_of_mem _ hmem, hrefused⟩

/-- Without another request, all requests stay refused. -/
theorem Unclaimed.cons (h : Unclaimed past) (hc : ∀ payload, c.1 ≠ .inr (.post payload)) :
    Unclaimed (c :: past) := by
  intro payload hposted
  exact (h payload ((posted_cons.mp hposted).resolve_left (hc payload))).cons c

/-- Nothing has been sent. -/
structure Fresh (past : List SiteEvent) : Prop where
  posted : ∀ payload, ¬ Posted past payload
  sent : ∀ message, ¬ Sent past message

theorem Fresh.cons (h : Fresh past) (hpost : ∀ payload, c.1 ≠ .inr (.post payload))
    (hsend : ∀ message, c.1 ≠ .inr (.sendMessage message)) : Fresh (c :: past) where
  posted payload hposted := h.posted payload ((posted_cons.mp hposted).resolve_left (hpost payload))
  sent message hsent := h.sent message ((sent_cons.mp hsent).resolve_left (hsend message))

theorem Fresh.unclaimed (h : Fresh past) : Unclaimed past :=
  fun payload hposted => (h.posted payload hposted).elim

/-- What the caller has lost, if it gives nothing back. -/
def LeavesNothingHeld (past : List SiteEvent) : Prop :=
  Unclaimed past ∧ ∀ message, Sent past message → HasLost past message.key

/-- What a direct claim gives, and what it has sent. -/
def ClaimsOrNot (past : List SiteEvent) (claimed : Option Attributes) : Prop :=
  (∀ message, ¬ Sent past message) ∧
    match claimed with
    | none => Unclaimed past
    | some reservation => ∃ id, Awaited past id (some (.claimed reservation))

theorem heeds_signedPost {payload : Attributes} {E : List SiteEvent → Failure → Prop}
    (hpast : Fresh past) (hdrew : Drew past payload.key) :
    (signedPost payload).Heeds CallerHeeds
      (fun past response => (∀ message, ¬ Sent past message) ∧
        (∀ other, Posted past other → other = payload) ∧
        Awaited past payload.key response) E past := by
  refine Heeds.bind (Q := fun past _ => (∀ message, ¬ Sent past message) ∧
      (∀ other, Posted past other → other = payload) ∧ Posted past payload)
    (heeds_request ⟨hdrew, hpast.posted, hpast.sent⟩ (fun r _ _ => ?_) fun _ _ h => by cases h)
    fun past _ hpast => heeds_request ⟨payload, hpast.2.2, rfl⟩ (fun r _ h => ?_)
      fun _ _ h => by cases h
  · refine ⟨fun message hsent => ?_, fun other hposted => ?_, posted_cons.mpr (Or.inl rfl)⟩
    · rcases sent_cons.mp hsent with heq | hsent
      · cases heq
      · exact hpast.sent message hsent
    · rcases posted_cons.mp hposted with heq | hposted
      · cases heq
        rfl
      · exact (hpast.posted other hposted).elim
  · cases h
    refine ⟨fun message hsent => ?_, fun other hposted => ?_, List.mem_cons_self⟩
    · rcases sent_cons.mp hsent with heq | hsent
      · cases heq
      · exact hpast.1 message hsent
    · rcases posted_cons.mp hposted with heq | hposted
      · cases heq
      · exact hpast.2.1 other hposted

theorem heeds_claimDirect {params : ClaimParams} {E : List SiteEvent → Failure → Prop}
    (hpast : Fresh past) : (claimDirect params).Heeds CallerHeeds ClaimsOrNot E past := by
  refine Heeds.bind (Q := fun past _ => Fresh past) (heeds_request trivial (fun r _ _ => ?_)
    fun _ _ h => by cases h) fun past url hpast => ?_
  · exact hpast.cons (by simp) (by simp)
  split
  · exact heeds_pure ⟨hpast.sent, hpast.unclaimed⟩
  refine Heeds.bind (Q := fun past id => Fresh past ∧ Drew past id) (heeds_request trivial
    (fun r _ h => ?_) fun _ _ h => by cases h) fun past reservationId hpast => ?_
  · cases h
    exact ⟨hpast.cons (by simp) (by simp), List.mem_cons_self⟩
  refine Heeds.bind (Q := fun past _ => Fresh past ∧ Drew past reservationId) (heeds_request trivial
    (fun r _ _ => ?_) fun _ _ h => by cases h) fun past createdAt hpast => ?_
  · exact ⟨hpast.1.cons (by simp) (by simp), List.mem_cons_of_mem _ hpast.2⟩
  refine (heeds_signedPost hpast.1 (by rw [ClaimParams.key_payload]; exact hpast.2)).bind
    fun past response hpast => ?_
  obtain ⟨hsent, honly, hanswered⟩ := hpast
  have hunclaimed (hrefused : ∀ reservation, response ≠ some (ClaimResponse.claimed reservation)) :
      Unclaimed past := by
    intro payload hposted
    obtain rfl := honly payload hposted
    exact ⟨response, hanswered, hrefused⟩
  split
  · exact heeds_pure ⟨hsent, _, hanswered⟩
  · exact heeds_pure ⟨hsent, hunclaimed (by simp)⟩
  · exact heeds_pure ⟨hsent, hunclaimed (by simp)⟩

/-- Nothing has been sent for a reservation yet, and no request has claimed one. -/
structure Unsent (past : List SiteEvent) : Prop where
  unclaimed : Unclaimed past
  sent : ∀ message, ¬ Sent past message

theorem Unsent.cons (h : Unsent past) (hpost : ∀ payload, c.1 ≠ .inr (.post payload))
    (hsend : ∀ message, c.1 ≠ .inr (.sendMessage message)) : Unsent (c :: past) where
  unclaimed := h.unclaimed.cons hpost
  sent message hsent := h.sent message ((sent_cons.mp hsent).resolve_left (hsend message))

theorem Unsent.leavesNothingHeld (h : Unsent past) : LeavesNothingHeld past :=
  ⟨h.unclaimed, fun message hsent => (h.sent message hsent).elim⟩

/-- All that has been sent is for this reservation, and no request has claimed one. -/
def SentFor (past : List SiteEvent) (r : String) : Prop :=
  Unclaimed past ∧ ∀ message, Sent past message → message.key = r

/-- The caller sends its message once no request has claimed a reservation. -/
theorem heeds_createReservation {message : (reservationId createdAt : String) → Attributes}
    (hmessage : ∀ reservationId createdAt, (message reservationId createdAt).key = reservationId ∧
      AsksForOneNode (message reservationId createdAt)) (hpast : Unsent past) :
    (Client.createReservation message).Heeds CallerHeeds SentFor
      (fun past _ => LeavesNothingHeld past) past := by
  refine Heeds.bind (Q := fun past id => Unsent past ∧ Drew past id) (heeds_request trivial
    (fun r _ h => ?_) fun _ _ h => by cases h) fun past reservationId hpast => ?_
  · cases h
    exact ⟨hpast.cons (by simp) (by simp), List.mem_cons_self⟩
  refine Heeds.bind (Q := fun past _ => Unsent past ∧ Drew past reservationId)
    (heeds_request trivial (fun r _ _ => ?_) fun _ _ h => by cases h)
    fun past createdAt hpast => ?_
  · exact ⟨hpast.1.cons (by simp) (by simp), List.mem_cons_of_mem _ hpast.2⟩
  refine Heeds.bind (Q := fun past _ => Unsent past ∧ Drew past reservationId)
    (heeds_request trivial (fun r _ _ => ?_) fun r _ _ => ?_) fun past _ hpast => ?_
  · exact ⟨hpast.1.cons (by simp) (by simp), List.mem_cons_of_mem _ hpast.2⟩
  · exact (hpast.1.cons (by simp) (by simp)).leavesNothingHeld
  obtain ⟨hunsent, hdrew⟩ := hpast
  obtain ⟨hkey, hasks⟩ := hmessage reservationId createdAt
  have hsent (r : Except Failure Unit) (other : Attributes)
      (h : Sent (⟨.inr (.sendMessage (message reservationId createdAt)), r⟩ :: past) other) :
      other = message reservationId createdAt := by
    rcases sent_cons.mp h with heq | hsent
    · cases heq
      rfl
    · exact (hunsent.sent other hsent).elim
  refine Heeds.bind (Q := fun past _ => SentFor past reservationId)
    (heeds_request ⟨hkey.symm ▸ hdrew, hasks, hunsent.sent, hunsent.unclaimed⟩ (fun r _ _ => ?_)
      fun r e h => ?_) fun past _ hpast => heeds_pure hpast
  · exact ⟨hunsent.unclaimed.cons (by simp), fun other h => (hsent r other h) ▸ hkey⟩
  · refine ⟨hunsent.unclaimed.cons (by simp), fun other hother => ?_⟩
    obtain rfl := hsent r other hother
    refine ⟨_, List.mem_cons_self, ?_⟩
    cases r with
    | ok _ => cases h
    | error _ => rfl

/-- What is given back is what has been sent for. -/
theorem SentFor.givesBack (h : SentFor past r) : GivesBack past (some r) :=
  Or.inr ⟨h.1, fun message hsent => Or.inl (congrArg some (h.2 message hsent).symm)⟩

theorem SdkReservation.heeds_sendAndWait (call : SdkReservation) (user : String × String)
    (hpast : Unsent past) :
    (call.sendAndWait user).Heeds CallerHeeds GivesBack (fun past _ => LeavesNothingHeld past)
      past := by
  refine (heeds_createReservation (fun _ _ => ⟨call.key_message, call.asksForOneNode⟩) hpast).bind
    fun past reservationId hsent => ?_
  have hwaited (r : Except Failure Unit) :
      SentFor (⟨.inr (.waitUntilReady reservationId), r⟩ :: past) reservationId :=
    ⟨hsent.1.cons (by simp), fun message h =>
      hsent.2 message ((sent_cons.mp h).resolve_left (by simp))⟩
  refine Heeds.bind (Q := fun past _ => SentFor past reservationId)
    (Heeds.whenever hsent fun _ => heeds_request trivial (fun r _ _ => hwaited r) fun r e h => ?_)
    fun past _ hsent => heeds_pure hsent.givesBack
  refine ⟨(hwaited r).1, fun message hmessage => ⟨_, List.mem_cons_self, ?_⟩⟩
  rw [(hwaited r).2 message hmessage]
  cases r with
  | ok _ => cases h
  | error _ => rfl

/-- A claim comes first, and what comes otherwise follows a refusal. -/
theorem heeds_claimFirst {direct : Bool} {params : ClaimParams} {otherwise : Client (Option String)}
    (hpast : Fresh past) (hotherwise : ∀ past, Unsent past → otherwise.Heeds CallerHeeds GivesBack
      (fun past _ => LeavesNothingHeld past) past) :
    (claimFirst direct params otherwise).Heeds CallerHeeds GivesBack
      (fun past _ => LeavesNothingHeld past) past := by
  refine Heeds.bind (Q := ClaimsOrNot) ?_ fun past claimed hclaims => ?_
  · unfold claimIf
    split
    · exact heeds_claimDirect hpast
    · exact heeds_pure ⟨hpast.sent, hpast.unclaimed⟩
  obtain ⟨hsent, hclaimed⟩ := hclaims
  cases claimed with
  | none => exact hotherwise past ⟨hclaimed, hsent⟩
  | some reservation =>
    obtain ⟨id, hawaited⟩ := hclaimed
    exact heeds_pure (Or.inl ⟨hsent, id, reservation, hawaited, rfl⟩)

theorem heeds_authenticate (hpast : Fresh past) :
    authenticate.Heeds CallerHeeds (fun past _ => Fresh past) (fun past _ => LeavesNothingHeld past)
      past := by
  have hfresh (r : Except Failure (String × String)) : Fresh (⟨.inr .authenticate, r⟩ :: past) :=
    hpast.cons (by simp) (by simp)
  exact heeds_request trivial (fun r _ _ => hfresh r) fun r _ _ =>
    ⟨(hfresh r).unclaimed, fun message hsent => ((hfresh r).sent message hsent).elim⟩

theorem SdkReservation.heeds_reserve (call : SdkReservation) :
    call.reserve.Heeds CallerHeeds GivesBack (fun past _ => LeavesNothingHeld past) [] := by
  have hfresh : Fresh [] := ⟨fun _ h => by simp [Posted] at h, fun _ h => by simp [Sent] at h⟩
  have hnothing : LeavesNothingHeld [] :=
    ⟨hfresh.unclaimed, fun message hsent => (hfresh.sent message hsent).elim⟩
  unfold reserve
  split
  · exact heeds_throw hnothing
  split
  · exact heeds_throw hnothing
  · exact (heeds_authenticate hfresh).bind fun past user hpast =>
      heeds_claimFirst hpast fun past hunsent => call.heeds_sendAndWait user hunsent

theorem CliReservation.heeds_reserve (call : CliReservation) :
    call.reserve.Heeds CallerHeeds GivesBack (fun past _ => LeavesNothingHeld past) [] := by
  have hfresh : Fresh [] := ⟨fun _ h => by simp [Posted] at h, fun _ h => by simp [Sent] at h⟩
  refine (heeds_authenticate hfresh).bind fun past user hpast =>
    heeds_claimFirst hpast fun past hunsent => Heeds.orElseGive
      (E := fun past _ => LeavesNothingHeld past) ?_ fun past _ hlost => ?_
  · exact (heeds_createReservation (fun _ _ => ⟨call.key_message, call.asksForOneNode⟩)
      hunsent).bind fun past reservationId hsent => heeds_pure hsent.givesBack
  · exact Or.inr ⟨hlost.1, fun message hsent => Or.inr (hlost.2 message hsent)⟩

/-- What a call comes to. -/
def Ends (past : List SiteEvent) : Option Outcome → Prop
  | some (.ok given) => GivesBack past given
  | some (.error _) => LeavesNothingHeld past
  | none => True

theorem heeds_caller (call : ReserveCall) (cfg : Settings) (minVersion : String) :
    (Party.caller.program cfg minVersion call).Heeds CallerHeeds Ends [] := by
  have hreserve : call.reserve.Heeds CallerHeeds GivesBack (fun past _ => LeavesNothingHeld past)
      [] := by
    cases call with
    | sdk reservation => exact reservation.heeds_reserve
    | cli reservation => exact reservation.heeds_reserve
  refine Program.Heeds.bind hreserve fun past outcome h => ?_
  cases outcome <;> exact h

end Caller

/-! ### Those that serve it -/

/-- The Lambda has been handed a request. -/
def accepted (payload : Attributes) : SiteEvent := ⟨.inr .accept, some payload⟩

/-- The Lambda has been handed a message. -/
def received (message : Attributes) : SiteEvent := ⟨.inr .receive, some message⟩

/-- When the Lambda does what for a request: it makes no other reservation active than the one that
is asked for, and what it answers in the end is right about what it has done. -/
def FunctionHeeds (past : List SiteEvent) (op : SiteOp) : Prop :=
  past = [] ∧ op = .inr .accept ∨
    ∃ payload earlier, past = earlier.map Program.leftEvent ++ [accepted payload] ∧
      match op with
      | .inl op => op.ActivatesOnly payload.key
      | .inr (.respond response) =>
        payload.NamesReservation → response.IsRight payload.key earlier
      | .inr _ => False

/-- For a message too it makes no other reservation active than the one that is asked for. -/
def WorkerHeeds (past : List SiteEvent) (op : SiteOp) : Prop :=
  op = .inr .receive ∨ ∃ message op₁, op = .inl op₁ ∧ received message ∈ past ∧
    (message.NamesReservation → AsksForOneNode message → op₁.ActivatesOnly message.key)

section Servers

variable {cfg : Settings} {minVersion : String}

theorem heeds_function :
    (functionProgram cfg minVersion).Heeds FunctionHeeds (fun _ _ => True) [] := by
  refine ⟨Or.inl ⟨rfl, rfl⟩, fun request => ?_⟩
  cases request with
  | none => trivial
  | some payload =>
    have hhandled : (handleDirectClaim cfg minVersion (some payload)).run.Heeds
        (fun _ op => op.ActivatesOnly payload.key)
        (fun earlier r => ∀ response, r = .ok response → payload.NamesReservation →
          response.IsRight payload.key earlier) [] := by
      by_cases hpayload : payload.NamesReservation
      · refine (Program.Heeds.and_onlyCalls (heeds_handleDirectClaim hpayload)
          issues_handleDirectClaim).mono_calls (fun _ _ h => h.2) |>.mono fun earlier r hr => ?_
        rintro response rfl -
        exact hr
      · exact (Program.OnlyCalls.heeds (K := fun _ => True) issues_handleDirectClaim
          (fun _ _ _ hop => hop) (fun _ _ _ _ _ => trivial) trivial).mono
          fun _ _ _ _ _ hnames => (hpayload hnames).elim
    refine Program.Heeds.bind ((hhandled.left [accepted payload]).mono_calls fun past op h => ?_)
      fun past r h => ?_
    · obtain ⟨earlier, op₁, rfl, rfl, hop⟩ := h
      exact Or.inr ⟨payload, earlier, rfl, hop⟩
    · obtain ⟨earlier, rfl, hright⟩ := h
      cases r with
      | ok response =>
        exact ⟨Or.inr ⟨payload, earlier, rfl, hright response rfl⟩, fun _ => trivial⟩
      | error e => trivial

theorem heeds_worker : (workerProgram cfg minVersion).Heeds WorkerHeeds (fun _ _ => True) [] := by
  refine ⟨Or.inl rfl, fun request => ?_⟩
  cases request with
  | none => trivial
  | some message =>
    have hhandled : (handleMessage cfg minVersion message).run.OnlyCalls fun op =>
        message.NamesReservation → AsksForOneNode message → op.ActivatesOnly message.key := by
      by_cases hasks : message.NamesReservation ∧ AsksForOneNode message
      · exact Program.OnlyCalls.mono (issues_handleMessage hasks.1 hasks.2.1 hasks.2.2)
          fun _ hop _ _ => hop
      · exact Program.onlyCalls_of_forall (fun _ hnames hone => (hasks ⟨hnames, hone⟩).elim) _
    refine Program.Heeds.bind (Program.OnlyCalls.heeds (K := fun past => received message ∈ past)
      hhandled.left (fun past op hpast h => ?_) (fun _ _ _ hpast _ => List.mem_cons_of_mem _ hpast)
      List.mem_cons_self) fun _ _ _ => trivial
    obtain ⟨op₁, rfl, hop⟩ := h
    exact Or.inr ⟨message, op₁, rfl, hpast, hop⟩

end Servers

end CiInfra.GpuDev
