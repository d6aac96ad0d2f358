import CiInfra.GpuDev.CallerSteps

/-!
# One reservation for one call

An id says nothing about the call that it was drawn for, so nothing on the side of the Lambda keeps
the two reservations of a call apart. That no two become active rests on the caller: it is to hear
of a reservation that is made active for it, and to hold on to it.
-/

namespace CiInfra.GpuDev

open Interaction Fallible

/-- Something that happened while a call was served. -/
abbrev Happened := Happening Party SiteOp SiteRes Site

/-- What a party has done, the latest first. -/
abbrev did (p : Party) (es : List Happened) : List SiteEvent :=
  es.filterMap (Happening.callOf p)

/-- A reservation that an id has been drawn for becomes active. -/
def becomesActive (r : String) (e : Happened) : Bool :=
  e.before.drawn.contains r && !e.before.world.isActive r && e.after.world.isActive r

/-- At most one reservation of the call has become active, and it is the one that the caller gets
back. -/
def OneReservation (es : List Happened)
    (T : System Party SiteOp SiteRes (Option Outcome) Site) : Prop :=
  ∀ r, ∀ e ∈ es, becomesActive r e = true →
    (∀ r', ∀ e' ∈ es, becomesActive r' e' = true → r' = r) ∧
      ∀ outcome, T.procs .caller = .done (some outcome) → outcome = .ok (some r)

/-- The reservation of which the caller loses hold. -/
def lostBy (e : Happened) : Option String := (e.callOf .caller).bind lost

/-- A reservation becomes active only while the caller has not lost hold of it, and the caller loses
hold of none that has become active. -/
structure HoldsOn (past : List Happened) (e : Happened) : Prop where
  activates : ∀ r ∈ e.before.drawn, becomesActive r e = true → ∀ d ∈ past, lostBy d ≠ some r
  loses : ∀ r ∈ lostBy e, ∀ d ∈ past, becomesActive r d = false

instance HoldsOn.decidable (past : List Happened) (e : Happened) : Decidable (HoldsOn past e) :=
  decidable_of_iff
    ((∀ r ∈ e.before.drawn, becomesActive r e = true → ∀ d ∈ past, lostBy d ≠ some r) ∧
      ∀ r ∈ lostBy e, ∀ d ∈ past, becomesActive r d = false)
    ⟨fun h => ⟨h.1, h.2⟩, fun h => ⟨h.activates, h.loses⟩⟩

/-! ### Who does what -/

section Steps

variable {cfg : Settings} {minVersion : String} {call : ReserveCall} {w : World}
  {T : System Party SiteOp SiteRes (Option Outcome) Site} {es later earlier : List Happened}
  {d e : Happened} {r : String}

theorem mem_did {p : Party} {c : SiteEvent} : c ∈ did p es ↔ ∃ e ∈ es, e.call = some (p, c) :=
  History.mem_callsOf

theorem callerHeeds
    (h : History SiteAnswers Surrounds (reserving cfg minVersion call w) (later ++ e :: earlier) T)
    {op : SiteOp} {res : SiteRes op} (hcall : e.call = some (.caller, ⟨op, res⟩)) :
    CallerHeeds (did .caller earlier) op :=
  h.heeds (heeds_caller call cfg minVersion) hcall

theorem functionHeeds
    (h : History SiteAnswers Surrounds (reserving cfg minVersion call w) (later ++ e :: earlier) T)
    {op : SiteOp} {res : SiteRes op} (hcall : e.call = some (.function, ⟨op, res⟩)) :
    FunctionHeeds (did .function earlier) op :=
  h.heeds heeds_function hcall

theorem workerHeeds
    (h : History SiteAnswers Surrounds (reserving cfg minVersion call w) (later ++ e :: earlier) T)
    {n : ℕ} {op : SiteOp} {res : SiteRes op} (hcall : e.call = some (.worker n, ⟨op, res⟩)) :
    WorkerHeeds (did (.worker n) earlier) op :=
  h.heeds heeds_worker hcall

/-- Requests and messages are sent by the caller. -/
theorem caller_of_sends
    (h : History SiteAnswers Surrounds (reserving cfg minVersion call w) (later ++ e :: earlier) T)
    {p : Party} {op : Remote} {res : op.Res} (hcall : e.call = some (p, ⟨.inr op, res⟩))
    (hop : (∃ payload, op = .post payload) ∨ ∃ message, op = .sendMessage message) :
    p = .caller := by
  cases p with
  | caller => rfl
  | function =>
    rcases functionHeeds h hcall with ⟨-, hacc⟩ | ⟨payload, past, -, hmatch⟩
    · obtain ⟨_, rfl⟩ | ⟨_, rfl⟩ := hop <;> cases hacc
    · obtain ⟨_, rfl⟩ | ⟨_, rfl⟩ := hop <;> exact hmatch.elim
  | worker n =>
    rcases workerHeeds h hcall with hrec | ⟨message, op₁, hinl, -⟩
    · obtain ⟨_, rfl⟩ | ⟨_, rfl⟩ := hop <;> cases hrec
    · cases hinl

/-- Requests are answered by the Lambda that they are handed to. -/
theorem function_of_respond
    (h : History SiteAnswers Surrounds (reserving cfg minVersion call w) (later ++ e :: earlier) T)
    {p : Party} {response : ClaimResponse} {res : SiteRes (.inr (.respond response))}
    (hcall : e.call = some (p, ⟨.inr (.respond response), res⟩)) : p = .function := by
  cases p with
  | caller => exact (callerHeeds h hcall).elim
  | function => rfl
  | worker n =>
    rcases workerHeeds h hcall with hrec | ⟨message, op₁, hinl, -⟩
    · cases hrec
    · cases hinl

/-! ### Where it comes from -/

/-- What the calls beside those of the Lambdas do leaves the world alone. -/
theorem Remote.Answers.world {op : Remote} {s s' : Site} {res : op.Res}
    (h : op.Answers s res s') : s'.world = s.world := by
  cases op with
  | newId => rw [h.2.2.2]
  | post payload => rcases h with rfl | rfl <;> rfl
  | await id => rw [h.1]
  | sendMessage message => rcases h with rfl | ⟨rfl, -⟩ <;> rfl
  | accept =>
    cases res with
    | none => exact congrArg Site.world h
    | some payload =>
      obtain ⟨sooner, later, -, rfl⟩ := h
      rfl
  | respond response => rw [show s' = _ from h]
  | receive => rw [h.1]
  | _ => exact congrArg Site.world h

/-- What has newly arrived, been answered, been sent or been drawn after a call. -/
structure Brings (op : Remote) (s s' : Site) : Prop where
  requests : ∀ payload ∈ s'.requests, payload ∈ s.requests ∨ op = .post payload
  responses : ∀ response ∈ s'.responses, response ∈ s.responses ∨ op = .respond response
  queue : ∀ message ∈ s'.queue, message ∈ s.queue ∨ op = .sendMessage message
  drawn : ∀ id ∈ s'.drawn, id ∈ s.drawn ∨ isReservationKey id = true

theorem Brings.refl (op : Remote) (s : Site) : Brings op s s :=
  ⟨fun _ => Or.inl, fun _ => Or.inl, fun _ => Or.inl, fun _ => Or.inl⟩

theorem Remote.Answers.brings {op : Remote} {s s' : Site} {res : op.Res}
    (h : op.Answers s res s') : Brings op s s' := by
  cases op with
  | newId =>
    obtain ⟨-, -, hkey, rfl⟩ := h
    refine { Brings.refl _ s with drawn := fun id hid => ?_ }
    rcases List.mem_cons.mp hid with rfl | hid
    · exact Or.inr hkey
    · exact Or.inl hid
  | post payload =>
    rcases h with rfl | rfl
    · exact Brings.refl _ _
    · refine { Brings.refl _ s with requests := fun other hother => ?_ }
      rcases List.mem_cons.mp hother with rfl | hother
      · exact Or.inr rfl
      · exact Or.inl hother
  | await id =>
    obtain ⟨rfl, -⟩ := h
    exact Brings.refl _ _
  | sendMessage message =>
    rcases h with rfl | ⟨rfl, -⟩
    · refine { Brings.refl _ s with queue := fun other hother => ?_ }
      rcases List.mem_cons.mp hother with rfl | hother
      · exact Or.inr rfl
      · exact Or.inl hother
    · exact Brings.refl _ _
  | accept =>
    cases res with
    | none =>
      obtain rfl : s' = s := h
      exact Brings.refl _ _
    | some payload =>
      obtain ⟨sooner, later, hrequests, rfl⟩ := h
      refine { Brings.refl _ s with requests := fun other hother => Or.inl ?_ }
      rw [hrequests]
      rcases List.mem_append.mp hother with hother | hother
      · exact List.mem_append_left _ hother
      · exact List.mem_append_right _ (List.mem_cons_of_mem _ hother)
  | respond response =>
    obtain rfl : s' = { s with responses := response :: s.responses } := h
    refine { Brings.refl _ s with responses := fun other hother => ?_ }
    rcases List.mem_cons.mp hother with rfl | hother
    · exact Or.inr rfl
    · exact Or.inl hother
  | receive =>
    obtain ⟨rfl, -⟩ := h
    exact Brings.refl _ _
  | _ =>
    obtain rfl : s' = s := h
    exact Brings.refl _ _

/-- What newly is there was brought by a call, if it is not the world that has changed. -/
theorem brought
    (h : History SiteAnswers Surrounds (reserving cfg minVersion call w) (later ++ e :: earlier)
      T) :
    (∃ p op res, e.call = some (p, ⟨.inr op, res⟩) ∧ Brings op e.before e.after) ∨
      e.after.requests = e.before.requests ∧ e.after.responses = e.before.responses ∧
        e.after.queue = e.before.queue ∧ e.after.drawn = e.before.drawn := by
  have hmem : e ∈ later ++ e :: earlier := by simp
  cases hcall : e.call with
  | none =>
    have hs := h.changed hmem hcall
    exact Or.inr ⟨hs.requests, hs.responses, hs.queue, hs.drawn⟩
  | some c =>
    obtain ⟨p, op, res⟩ := c
    have hserved := h.served hmem hcall
    cases op with
    | inl op =>
      obtain ⟨-, -, hafter⟩ := hserved
      rw [hafter]
      exact Or.inr ⟨rfl, rfl, rfl, rfl⟩
    | inr op => exact Or.inl ⟨p, op, res, rfl, Remote.Answers.brings hserved⟩

/-- A request that has arrived was sent by the caller. -/
theorem posted_of_mem_requests
    (h : History SiteAnswers Surrounds (reserving cfg minVersion call w) es T) 
    {payload : Attributes} (hpayload : payload ∈ T.state.requests) :
    Posted (did .caller es) payload := by
  obtain ⟨e, he, hbefore, hafter⟩ := h.arises (K := fun s => payload ∈ s.requests)
    (List.not_mem_nil) hpayload
  obtain ⟨later, earlier, rfl⟩ := List.append_of_mem he
  rcases brought h with ⟨p, op, res, hcall, hbrings⟩ | ⟨hsame, -⟩
  · obtain rfl := (hbrings.requests payload hafter).resolve_left hbefore
    obtain rfl := caller_of_sends h hcall (Or.inl ⟨payload, rfl⟩)
    exact ⟨_, mem_did.mpr ⟨e, he, hcall⟩, rfl⟩
  · exact absurd (hsame ▸ hafter) hbefore

/-- A message in the queue was sent by the caller. -/
theorem sent_of_mem_queue
    (h : History SiteAnswers Surrounds (reserving cfg minVersion call w) es T) 
    {message : Attributes} (hmessage : message ∈ T.state.queue) :
    Sent (did .caller es) message := by
  obtain ⟨e, he, hbefore, hafter⟩ := h.arises (K := fun s => message ∈ s.queue)
    (List.not_mem_nil) hmessage
  obtain ⟨later, earlier, rfl⟩ := List.append_of_mem he
  rcases brought h with ⟨p, op, res, hcall, hbrings⟩ | ⟨-, -, hsame, -⟩
  · obtain rfl := (hbrings.queue message hafter).resolve_left hbefore
    obtain rfl := caller_of_sends h hcall (Or.inr ⟨message, rfl⟩)
    exact ⟨_, mem_did.mpr ⟨e, he, hcall⟩, rfl⟩
  · exact absurd (hsame ▸ hafter) hbefore

/-- An answer was given by the Lambda that the request was handed to. -/
theorem responded_of_mem_responses
    (h : History SiteAnswers Surrounds (reserving cfg minVersion call w) es T)
    {response : ClaimResponse} (hresponse : response ∈ T.state.responses) :
    ∃ later e earlier res, es = later ++ e :: earlier ∧
      e.call = some (.function, ⟨.inr (.respond response), res⟩) := by
  obtain ⟨e, he, hbefore, hafter⟩ := h.arises (K := fun s => response ∈ s.responses)
    (List.not_mem_nil) hresponse
  obtain ⟨later, earlier, rfl⟩ := List.append_of_mem he
  rcases brought h with ⟨p, op, res, hcall, hbrings⟩ | ⟨-, hsame, -⟩
  · obtain rfl := (hbrings.responses response hafter).resolve_left hbefore
    obtain rfl := function_of_respond h hcall
    exact ⟨later, e, earlier, res, rfl, hcall⟩
  · exact absurd (hsame ▸ hafter) hbefore

/-- All ids that are drawn are ids of reservations. -/
theorem isReservationKey_of_mem_drawn
    (h : History SiteAnswers Surrounds (reserving cfg minVersion call w) es T)
    (hr : r ∈ T.state.drawn) : isReservationKey r = true := by
  by_contra hkey
  obtain ⟨e, he, hbefore, hafter⟩ := h.arises (K := fun s => r ∈ s.drawn) (List.not_mem_nil) hr
  obtain ⟨later, earlier, rfl⟩ := List.append_of_mem he
  rcases brought h with ⟨p, op, res, hcall, hbrings⟩ | ⟨-, -, -, hsame⟩
  · exact hkey ((hbrings.drawn r hafter).resolve_left hbefore)
  · exact absurd (hsame ▸ hafter) hbefore

/-- An id that the caller has drawn names a reservation. -/
theorem names_of_drew
    (h : History SiteAnswers Surrounds (reserving cfg minVersion call w) es T) {body : Attributes}
    (hdrew : Drew (did .caller es) body.key) : body.NamesReservation := by
  obtain ⟨e, he, hcall⟩ := mem_did.mp hdrew
  obtain ⟨-, hne, hkey, -⟩ := h.served he hcall
  exact ⟨hne, hkey⟩

theorem exists_call {p : Party} {op : SiteOp} (h : ∃ c ∈ did p es, c.1 = op) :
    ∃ e ∈ es, ∃ res, e.call = some (p, ⟨op, res⟩) := by
  obtain ⟨⟨op, res⟩, hc, rfl⟩ := h
  obtain ⟨e, he, hcall⟩ := mem_did.mp hc
  exact ⟨e, he, res, hcall⟩

theorem did_of_call {p : Party} {op : SiteOp} {res : SiteRes op} (he : e ∈ es)
    (hcall : e.call = some (p, ⟨op, res⟩)) : ∃ c ∈ did p es, c.1 = op :=
  ⟨⟨op, res⟩, mem_did.mpr ⟨e, he, hcall⟩, rfl⟩

theorem did_subset {p : Party} : did p earlier ⊆ did p (later ++ e :: earlier) := by
  intro c hc
  obtain ⟨d, hd, hcall⟩ := mem_did.mp hc
  exact mem_did.mpr ⟨d, by simp [hd], hcall⟩

/-- Of two calls neither of which comes after the other there is only one. -/
theorem same_call {p : Party} {op op' : SiteOp} {res : SiteRes op} {res' : SiteRes op'}
    {e' : Happened} (he : e ∈ es) (he' : e' ∈ es) (hcall : e.call = some (p, ⟨op, res⟩))
    (hcall' : e'.call = some (p, ⟨op', res'⟩))
    (hfirst : ∀ later earlier, es = later ++ e' :: earlier → ¬ ∃ c ∈ did p earlier, c.1 = op)
    (hfirst' : ∀ later earlier, es = later ++ e :: earlier → ¬ ∃ c ∈ did p earlier, c.1 = op') :
    op = op' := by
  rcases precedes_or he he' with
    rfl | ⟨later, earlier, hsplit, hmem⟩ | ⟨later, earlier, hsplit, hmem⟩
  · cases hcall.symm.trans hcall'
    rfl
  · exact (hfirst later earlier hsplit (did_of_call hmem hcall)).elim
  · exact (hfirst' later earlier hsplit (did_of_call hmem hcall')).elim

/-- The caller sends one request at most. -/
theorem posted_unique
    (h : History SiteAnswers Surrounds (reserving cfg minVersion call w) es T)
    {payload payload' : Attributes} (hposted : Posted (did .caller es) payload)
    (hposted' : Posted (did .caller es) payload') : payload = payload' := by
  obtain ⟨e, he, res, hcall⟩ := exists_call hposted
  obtain ⟨e', he', res', hcall'⟩ := exists_call hposted'
  have hsame := same_call he he' hcall hcall'
    (fun later earlier hsplit hpast => (callerHeeds (hsplit ▸ h) hcall').2.1 payload hpast)
    fun later earlier hsplit hpast => (callerHeeds (hsplit ▸ h) hcall).2.1 payload' hpast
  cases hsame
  rfl

/-- The caller sends one message at most. -/
theorem sent_unique
    (h : History SiteAnswers Surrounds (reserving cfg minVersion call w) es T)
    {message message' : Attributes} (hsent : Sent (did .caller es) message)
    (hsent' : Sent (did .caller es) message') : message = message' := by
  obtain ⟨e, he, res, hcall⟩ := exists_call hsent
  obtain ⟨e', he', res', hcall'⟩ := exists_call hsent'
  have hsame := same_call he he' hcall hcall'
    (fun later earlier hsplit hpast => (callerHeeds (hsplit ▸ h) hcall').2.2.1 message hpast)
    fun later earlier hsplit hpast => (callerHeeds (hsplit ▸ h) hcall).2.2.1 message' hpast
  cases hsame
  rfl

/-- A request that has been sent names a reservation. -/
theorem names_of_posted
    (h : History SiteAnswers Surrounds (reserving cfg minVersion call w) es T)
    {payload : Attributes} (hposted : Posted (did .caller es) payload) :
    payload.NamesReservation := by
  obtain ⟨e, he, res, hcall⟩ := exists_call hposted
  obtain ⟨later, earlier, rfl⟩ := List.append_of_mem he
  exact names_of_drew h (did_subset (callerHeeds h hcall).1)

/-- A message that has been sent asks for a reservation of one node that it names. -/
theorem asks_of_sent
    (h : History SiteAnswers Surrounds (reserving cfg minVersion call w) es T)
    {message : Attributes} (hsent : Sent (did .caller es) message) :
    message.NamesReservation ∧ AsksForOneNode message := by
  obtain ⟨e, he, res, hcall⟩ := exists_call hsent
  obtain ⟨later, earlier, rfl⟩ := List.append_of_mem he
  obtain ⟨hdrew, hasks, -, -⟩ := callerHeeds h hcall
  exact ⟨names_of_drew h (did_subset hdrew), hasks⟩

/-- What the Lambda is handed as a request the caller has sent. -/
theorem posted_of_accepted
    (h : History SiteAnswers Surrounds (reserving cfg minVersion call w) es T)
    {payload : Attributes} (haccepted : accepted payload ∈ did .function es) :
    Posted (did .caller es) payload := by
  obtain ⟨e, he, hcall⟩ := mem_did.mp haccepted
  obtain ⟨later, earlier, rfl⟩ := List.append_of_mem he
  obtain ⟨U, hU, hbefore⟩ := h.before
  obtain ⟨sooner, rest, hrequests, -⟩ := h.served he hcall
  have hmem : payload ∈ U.state.requests := by
    rw [← hbefore, hrequests]
    simp
  obtain ⟨c, hc, hpost⟩ := posted_of_mem_requests hU hmem
  exact ⟨c, did_subset hc, hpost⟩

/-- What it is handed as a message the caller has sent. -/
theorem sent_of_received {n : ℕ}
    (h : History SiteAnswers Surrounds (reserving cfg minVersion call w) es T)
    {message : Attributes} (hreceived : received message ∈ did (.worker n) es) :
    Sent (did .caller es) message := by
  obtain ⟨e, he, hcall⟩ := mem_did.mp hreceived
  obtain ⟨later, earlier, rfl⟩ := List.append_of_mem he
  obtain ⟨U, hU, hbefore⟩ := h.before
  obtain ⟨-, hqueue⟩ := h.served he hcall
  have hmem : message ∈ U.state.queue := hbefore ▸ hqueue message rfl
  obtain ⟨c, hc, hsend⟩ := sent_of_mem_queue hU hmem
  exact ⟨c, did_subset hc, hsend⟩

theorem becomesActive_iff : becomesActive r e = true ↔
    r ∈ e.before.drawn ∧ e.before.world.isActive r = false ∧ e.after.world.isActive r = true := by
  simp [becomesActive, and_assoc]

/-- A reservation of the call becomes active by the Lambda that serves its request, or its message
has been sent. -/
theorem becomesActive_cases
    (h : History SiteAnswers Surrounds (reserving cfg minVersion call w) (later ++ e :: earlier) T)
    (hactive : becomesActive r e = true) :
    (∃ op res payload, e.call = some (.function, ⟨.inl op, res⟩) ∧
        op.statusFor r = some (.text "active") ∧ payload.key = r ∧
        accepted payload ∈ did .function earlier) ∨
      ∃ message, message.key = r ∧ Sent (did .caller earlier) message := by
  obtain ⟨hdrawn, hbefore, hafter⟩ := becomesActive_iff.mp hactive
  have hmem : e ∈ later ++ e :: earlier := by simp
  obtain ⟨U, hU, hstate⟩ := h.before
  have hkey := isReservationKey_of_mem_drawn hU (hstate ▸ hdrawn)
  cases hcall : e.call with
  | none =>
    obtain ⟨message, hqueue, hmessage⟩ := (h.changed hmem hcall).activates r hdrawn hbefore hafter
    exact Or.inr ⟨message, hmessage, sent_of_mem_queue hU (hstate ▸ hqueue)⟩
  | some c =>
    obtain ⟨p, op, res⟩ := c
    have hserved := h.served hmem hcall
    cases op with
    | inr op =>
      rw [Remote.Answers.world hserved, hbefore] at hafter
      cases hafter
    | inl op =>
      have hstatus := hserved.1.statusFor_of_isActive hbefore hafter
      cases p with
      | caller => exact (callerHeeds h hcall).elim
      | function =>
        rcases functionHeeds h hcall with ⟨-, hacc⟩ | ⟨payload, past, hpast, honly⟩
        · cases hacc
        · exact Or.inl
            ⟨op, res, payload, rfl, hstatus, (honly r hkey hstatus).symm, by simp [hpast]⟩
      | worker n =>
        rcases workerHeeds h hcall with hrec | ⟨message, op₁, hop, hreceived, honly⟩
        · cases hrec
        · cases hop
          have hsent := sent_of_received hU hreceived
          obtain ⟨hnames, hasks⟩ := asks_of_sent hU hsent
          exact Or.inr ⟨message, (honly hnames hasks r hkey hstatus).symm, hsent⟩

/-- A call by which the caller loses hold of a reservation makes none active. -/
theorem becomesActive_of_lostBy
    (h : History SiteAnswers Surrounds (reserving cfg minVersion call w) es T) (he : e ∈ es)
    (hlost : lostBy e = some r) : becomesActive r e = false := by
  obtain ⟨⟨op, res⟩, hcallOf, hlost⟩ := Option.bind_eq_some_iff.mp hlost
  have hserved := h.served he (Happening.callOf_eq_some.mp hcallOf)
  cases op with
  | inl op => cases hlost
  | inr op =>
    rw [becomesActive, Remote.Answers.world hserved]
    cases e.before.world.isActive r <;> simp

/-- The caller never loses hold of a reservation that becomes active. -/
theorem not_hasLost (h : History SiteAnswers Surrounds (reserving cfg minVersion call w) es T)
    (hheld : Throughout HoldsOn es) (he : e ∈ es) (hactive : becomesActive r e = true) :
    ¬ HasLost (did .caller es) r := by
  rintro ⟨c, hc, hlost⟩
  obtain ⟨d, hd, hcall⟩ := mem_did.mp hc
  have hlostBy : lostBy d = some r := by
    rw [lostBy, Happening.callOf_eq_some.mpr hcall]
    exact hlost
  rcases precedes_or hd he with
    rfl | ⟨later, earlier, rfl, hbefore⟩ | ⟨later, earlier, rfl, hbefore⟩
  · exact Bool.false_ne_true ((becomesActive_of_lostBy h hd hlostBy).symm.trans hactive)
  · exact hheld.at.activates r (becomesActive_iff.mp hactive).1 hactive d hbefore hlostBy
  · exact Bool.false_ne_true ((hheld.at.loses r hlostBy e hbefore).symm.trans hactive)

/-- The Lambda makes a reservation active for a request. -/
structure ClaimsDirectly (es : List Happened) (e : Happened) (r : String) : Prop where
  mem : e ∈ es
  active : becomesActive r e = true
  call : ∃ op res, e.call = some (.function, ⟨.inl op, res⟩) ∧
    op.statusFor r = some (.text "active")
  accepted : ∃ payload, payload.key = r ∧ accepted payload ∈ did .function es

/-- What the Lambda answers is the last that it does, and is about the one request. -/
theorem responds_last
    (h : History SiteAnswers Surrounds (reserving cfg minVersion call w) es T)
    {response : ClaimResponse} {res : SiteRes (.inr (.respond response))} {op : Op}
    {res₁ : SiteRes (.inl op)} (hd : d ∈ es) (he : e ∈ es)
    (hrespond : d.call = some (.function, ⟨.inr (.respond response), res⟩))
    (hcall : e.call = some (.function, ⟨.inl op, res₁⟩)) : Precedes es e d := by
  rcases precedes_or hd he with rfl | ⟨later, earlier, hsplit, hmem⟩ | hprecedes
  · cases hrespond.symm.trans hcall
  · rcases functionHeeds (hsplit ▸ h) hcall with ⟨-, hacc⟩ | ⟨payload, past, hpast, -⟩
    · cases hacc
    have hmem' : (⟨.inr (.respond response), res⟩ : SiteEvent) ∈ did .function earlier :=
      mem_did.mpr ⟨d, hmem, hrespond⟩
    rw [hpast, List.mem_append, List.mem_singleton] at hmem'
    rcases hmem' with hleft | hacc
    · obtain ⟨c, -, hc⟩ := List.mem_map.mp hleft
      cases hc
    · cases hacc
  · exact hprecedes

/-- Whatever the Lambda answers once it has made a reservation active names that reservation. -/
theorem ClaimsDirectly.responds
    (h : History SiteAnswers Surrounds (reserving cfg minVersion call w) es T)
    (hclaims : ClaimsDirectly es e r) {response : ClaimResponse}
    {res : SiteRes (.inr (.respond response))} (hd : d ∈ es)
    (hrespond : d.call = some (.function, ⟨.inr (.respond response), res⟩)) :
    ∃ reservation, response = .claimed reservation ∧ reservation.key = r := by
  obtain ⟨he, -, ⟨op, res₁, hcall, hstatus⟩, payload, rfl, haccepted⟩ := hclaims
  obtain ⟨later, earlier, rfl, hmem⟩ := responds_last h hd he hrespond hcall
  rcases functionHeeds h hrespond with ⟨-, hacc⟩ | ⟨payload', past, hpast, hright⟩
  · cases hacc
  have hleft {c : Program.Event Op Op.Res} (hc : c ∈ past) :
      Program.leftEvent c ∈ did .function (later ++ d :: earlier) :=
    did_subset (hpast ▸ List.mem_append_left _ (List.mem_map_of_mem hc))
  -- The request that is answered is the one that the reservation has been made active for.
  have hposted' : Posted (did .caller (later ++ d :: earlier)) payload' :=
    posted_of_accepted h (did_subset (hpast ▸ by simp))
  obtain rfl := posted_unique h (posted_of_accepted h haccepted) hposted'
  have hclaimed : (⟨op, res₁⟩ : Program.Event Op Op.Res) ∈ past := by
    have hdid : (⟨.inl op, res₁⟩ : SiteEvent) ∈ did .function earlier :=
      mem_did.mpr ⟨e, hmem, hcall⟩
    rw [hpast, List.mem_append, List.mem_singleton] at hdid
    rcases hdid with hdid | hacc
    · obtain ⟨c, hc, heq⟩ := List.mem_map.mp hdid
      cases heq
      exact hc
    · cases hacc
  have hanswer := hright (names_of_posted h hposted')
  cases response with
  | notClaimed reason => exact (hanswer _ hclaimed hstatus).elim
  | claimed reservation =>
    refine ⟨reservation, rfl, hanswer fun c hc => ?_⟩
    obtain ⟨x, hx, hxcall⟩ := mem_did.mp (hleft hc)
    exact (h.served hx hxcall).2.1

/-- A request whose reservation has become active is not refused, and it is answered unless the
caller has lost hold of it. -/
theorem ClaimsDirectly.not_refused
    (h : History SiteAnswers Surrounds (reserving cfg minVersion call w) es T)
    (hheld : Throughout HoldsOn es) (hclaims : ClaimsDirectly es e r) :
    ¬ Refused (did .caller es) r := by
  rintro ⟨response, hawaited, hrefused⟩
  cases response with
  | none => exact not_hasLost h hheld hclaims.mem hclaims.active ⟨_, hawaited, rfl⟩
  | some response =>
    obtain ⟨d, hd, hcall⟩ := mem_did.mp hawaited
    obtain ⟨later, earlier, rfl⟩ := List.append_of_mem hd
    obtain ⟨U, hU, hbefore⟩ := h.before
    have hresponse : response ∈ U.state.responses := hbefore ▸ (h.served hd hcall).2 response rfl
    obtain ⟨later', x, earlier', res, rfl, hx⟩ := responded_of_mem_responses hU hresponse
    obtain ⟨reservation, rfl, -⟩ := hclaims.responds h (by simp) hx
    exact hrefused reservation rfl

theorem Refused.mono {past past' : List SiteEvent} (h : Refused past r) (hsub : past ⊆ past') :
    Refused past' r := by
  obtain ⟨response, hmem, hrefused⟩ := h
  exact ⟨response, hsub hmem, hrefused⟩

theorem ClaimsDirectly.exists_posted
    (h : History SiteAnswers Surrounds (reserving cfg minVersion call w) es T)
    (hclaims : ClaimsDirectly es e r) :
    ∃ payload, payload.key = r ∧ Posted (did .caller es) payload := by
  obtain ⟨payload, hkey, haccepted⟩ := hclaims.accepted
  exact ⟨payload, hkey, posted_of_accepted h haccepted⟩

theorem ClaimsDirectly.not_unclaimed
    (h : History SiteAnswers Surrounds (reserving cfg minVersion call w) es T)
    (hheld : Throughout HoldsOn es) (hclaims : ClaimsDirectly es e r) :
    ¬ Unclaimed (did .caller es) := by
  intro hunclaimed
  obtain ⟨payload, rfl, hposted⟩ := hclaims.exists_posted h
  exact hclaims.not_refused h hheld (hunclaimed payload hposted)

/-- Nothing is sent to the queue then. -/
theorem ClaimsDirectly.not_sent
    (h : History SiteAnswers Surrounds (reserving cfg minVersion call w) es T)
    (hheld : Throughout HoldsOn es) (hclaims : ClaimsDirectly es e r) (message : Attributes) :
    ¬ Sent (did .caller es) message := by
  intro hsent
  obtain ⟨payload, rfl, hposted⟩ := hclaims.exists_posted h
  obtain ⟨x, hx, resx, hsend⟩ := exists_call hsent
  obtain ⟨y, hy, resy, hpost⟩ := exists_call hposted
  rcases precedes_or hx hy with
    rfl | ⟨later, earlier, hsplit, hmem⟩ | ⟨later, earlier, hsplit, hmem⟩
  · cases hsend.symm.trans hpost
  · exact (callerHeeds (hsplit ▸ h) hpost).2.2 message (did_of_call hmem hsend)
  · have hrefused := (callerHeeds (hsplit ▸ h) hsend).2.2.2 payload (did_of_call hmem hpost)
    exact hclaims.not_refused h hheld (hrefused.mono (hsplit ▸ did_subset))

/-- What the caller is told of a claim is the reservation that has become active. -/
theorem ClaimsDirectly.key_of_awaited
    (h : History SiteAnswers Surrounds (reserving cfg minVersion call w) es T)
    (hclaims : ClaimsDirectly es e r) {id : String} {reservation : Attributes}
    (hawaited : Awaited (did .caller es) id (some (.claimed reservation))) :
    reservation.key = r := by
  obtain ⟨d, hd, hcall⟩ := mem_did.mp hawaited
  obtain ⟨later, earlier, rfl⟩ := List.append_of_mem hd
  obtain ⟨U, hU, hbefore⟩ := h.before
  have hresponse : .claimed reservation ∈ U.state.responses :=
    hbefore ▸ (h.served hd hcall).2 _ rfl
  obtain ⟨later', x, earlier', res, rfl, hx⟩ := responded_of_mem_responses hU hresponse
  obtain ⟨reservation', heq, hkey⟩ := hclaims.responds h (by simp) hx
  cases heq
  exact hkey

/-- A reservation of the call becomes active for the request or for the message. -/
theorem claimsDirectly_or_sent
    (h : History SiteAnswers Surrounds (reserving cfg minVersion call w) es T) (he : e ∈ es)
    (hactive : becomesActive r e = true) :
    ClaimsDirectly es e r ∨ ∃ message, message.key = r ∧ Sent (did .caller es) message := by
  obtain ⟨later, earlier, rfl⟩ := List.append_of_mem he
  rcases becomesActive_cases h hactive with
    ⟨op, res, payload, hcall, hstatus, hkey, haccepted⟩ | ⟨message, hkey, c, hc, hsend⟩
  · exact Or.inl ⟨he, hactive, ⟨op, res, hcall, hstatus⟩, payload, hkey, did_subset haccepted⟩
  · exact Or.inr ⟨message, hkey, c, did_subset hc, hsend⟩

/-- No two reservations become active. -/
theorem becomesActive_unique
    (h : History SiteAnswers Surrounds (reserving cfg minVersion call w) es T)
    (hheld : Throughout HoldsOn es) (he : e ∈ es) (hactive : becomesActive r e = true)
    {d : Happened} {r' : String} (hd : d ∈ es) (hactive' : becomesActive r' d = true) : r' = r := by
  rcases claimsDirectly_or_sent h he hactive with hclaims | ⟨message, rfl, hsent⟩
  · rcases claimsDirectly_or_sent h hd hactive' with hclaims' | ⟨message', -, hsent'⟩
    · obtain ⟨payload, rfl, hposted⟩ := hclaims.exists_posted h
      obtain ⟨payload', rfl, hposted'⟩ := hclaims'.exists_posted h
      rw [posted_unique h hposted hposted']
    · exact (hclaims.not_sent h hheld message' hsent').elim
  · rcases claimsDirectly_or_sent h hd hactive' with hclaims' | ⟨message', rfl, hsent'⟩
    · exact (hclaims'.not_sent h hheld message hsent).elim
    · rw [sent_unique h hsent hsent']

/-- The caller gets back what has become active. -/
theorem outcome_of_becomesActive
    (h : History SiteAnswers Surrounds (reserving cfg minVersion call w) es T)
    (hheld : Throughout HoldsOn es) (he : e ∈ es) (hactive : becomesActive r e = true)
    {outcome : Outcome} (hdone : T.procs .caller = .done (some outcome)) :
    outcome = .ok (some r) := by
  have hends : Ends (did .caller es) (some outcome) :=
    h.heeds_done (heeds_caller call cfg minVersion) hdone
  have hkept := not_hasLost h hheld he hactive
  rcases claimsDirectly_or_sent h he hactive with hclaims | ⟨message, rfl, hsent⟩
  · cases outcome with
    | error e => exact (hclaims.not_unclaimed h hheld hends.1).elim
    | ok given =>
      rcases hends with ⟨-, id, reservation, hawaited, rfl⟩ | ⟨hunclaimed, -⟩
      · rw [hclaims.key_of_awaited h hawaited]
      · exact (hclaims.not_unclaimed h hheld hunclaimed).elim
  · cases outcome with
    | error e => exact (hkept (hends.2 message hsent)).elim
    | ok given =>
      rcases hends with ⟨hnone, -⟩ | ⟨-, hgiven⟩
      · exact (hnone message hsent).elim
      · rw [(hgiven message hsent).resolve_right hkept]

end Steps

/-- As long as the caller does not lose hold of a reservation, at most one becomes active, and it is
the one that the caller gets back. -/
theorem reserve_oneReservation {cfg : Settings} {minVersion : String} {call : ReserveCall}
    {w : World} {T : System Party SiteOp SiteRes (Option Outcome) Site} {es : List Happened}
    (h : History SiteAnswers Surrounds (reserving cfg minVersion call w) es T)
    (hheld : Throughout HoldsOn es) : OneReservation es T :=
  fun _ _ he hactive =>
    ⟨fun _ _ hd hactive' => becomesActive_unique h hheld he hactive hd hactive',
      fun _ hdone => outcome_of_becomesActive h hheld he hactive hdone⟩

/-! ### A claim and its message -/

/-- Answer a call of a Lambda with the world as it is, on a day on which everything goes well. -/
def serveShown : (op : Op) → World → op.Res × World
  | .getItem id _, w =>
    match w.table.get id with
    | some item => if item.key = id then (.ok (some item), w) else (.error .notFound, w)
    | none => (.ok none, w)
  | op, w => Script.fine.serve op w

theorem answers_serveShown (op : Op) (w : World) :
    op.Answers w (serveShown op w).1 (serveShown op w).2 ∧ ShowsKey ⟨op, (serveShown op w).1⟩ := by
  cases op with
  | getItem id consistentRead =>
    simp only [serveShown]
    split
    · rename_i item hitem
      split
      · rename_i hkey
        exact ⟨⟨rfl, fun _ found h => by cases h; exact hitem.symm⟩, hkey⟩
      · exact ⟨⟨rfl, fun _ found h => by cases h⟩, trivial⟩
    · rename_i hitem
      exact ⟨⟨rfl, fun _ found h => by cases h; exact hitem.symm⟩, trivial⟩
  | _ => exact ⟨Script.fine.answers_serve _ w, trivial⟩

/-- An id that is longer than all that have been drawn. -/
def nextId (drawn : List String) : String := String.ofList ('r' :: drawn.flatMap String.toList)

theorem nextId_notMem (drawn : List String) : nextId drawn ∉ drawn := by
  intro hmem
  have hlength : (nextId drawn).toList.length ≤ (drawn.flatMap String.toList).length :=
    (List.sublist_flatten_of_mem (List.mem_map_of_mem hmem)).length_le
  simp only [nextId, String.toList_ofList, List.length_cons] at hlength
  omega

theorem nextId_ne_empty (drawn : List String) : nextId drawn ≠ "" := by
  intro heq
  have hlist : (nextId drawn).toList = [] := congrArg String.toList heq
  simp [nextId] at hlist

theorem isReservationKey_nextId (drawn : List String) : isReservationKey (nextId drawn) = true := by
  simp [nextId, isReservationKey, List.isPrefixOf]

/-- Answer a call beside those of the Lambdas. Whether the answer to a request comes in time is
given. -/
def Remote.serve (inTime : Bool) : (op : Remote) → Site → op.Res × Site
  | authenticate, s => (.ok ("mira", "mira"), s)
  | directUrl, s => (some "direct", s)
  | newId, s => (nextId s.drawn, { s with drawn := nextId s.drawn :: s.drawn })
  | utcnow, s => ("2026-08-17T16:27:45", s)
  | post payload, s => ((), { s with requests := payload :: s.requests })
  | await _, s => (if inTime then s.responses.head? else none, s)
  | queueUrl, s => (.ok (), s)
  | sendMessage message, s => (.ok (), { s with queue := message :: s.queue })
  | waitUntilReady _, s => (.ok (), s)
  | accept, s =>
    match s.requests with
    | [] => (none, s)
    | payload :: later => (some payload, { s with requests := later })
  | respond response, s => ((), { s with responses := response :: s.responses })
  | receive, s => (s.queue.head?, s)

/-- Answer a call of a party. -/
def serveSite (inTime : Bool) : (op : SiteOp) → Site → SiteRes op × Site
  | .inl op, s => ((serveShown op s.world).1, { s with world := (serveShown op s.world).2 })
  | .inr op, s => op.serve inTime s

theorem answers_serveSite (inTime : Bool) (op : SiteOp) (s : Site) :
    SiteAnswers op s (serveSite inTime op s).1 (serveSite inTime op s).2 := by
  cases op with
  | inl op => exact ⟨(answers_serveShown op s.world).1, (answers_serveShown op s.world).2, rfl⟩
  | inr op =>
    cases op with
    | newId =>
      exact ⟨nextId_notMem s.drawn, nextId_ne_empty s.drawn, isReservationKey_nextId s.drawn, rfl⟩
    | post payload => exact Or.inr rfl
    | await id =>
      refine ⟨rfl, fun response h => ?_⟩
      have hhead : s.responses.head? = some response := by
        cases inTime with
        | true => exact h
        | false => cases h
      exact List.mem_of_mem_head? hhead
    | sendMessage message => exact Or.inl rfl
    | accept =>
      obtain ⟨world, requests, responses, queue, drawn⟩ := s
      cases requests with
      | nil => rfl
      | cons payload later => exact ⟨[], later, rfl, rfl⟩
    | receive => exact ⟨rfl, fun message h => List.mem_of_mem_head? h⟩
    | _ => rfl

/-- A version is not older than itself, however it is read. -/
theorem validateCliVersion_eq : validateCliVersion = fun minVersion message =>
    if minVersion ≠ "" ∧ message.text "version" = minVersion then none
    else validateCliVersion minVersion message := by
  funext minVersion message
  split
  · rename_i hcurrent
    obtain ⟨hne, rfl⟩ := hcurrent
    simp [validateCliVersion, hne, List.lt_irrefl]
  · rfl

/-- A call for a pod without GPUs. -/
def cpuCall : ReserveCall := .sdk
  { version := "0.3.9", gpuType := "cpu-x86", gpuCount := 0, hours := 8, name := none,
    jupyter := false, diskName := none, dockerImage := none, ref := none, spot := false,
    direct := true, wait := false }

/-- The call, with two pods in the pool. -/
def beforeCall : System Party SiteOp SiteRes (Option Outcome) Site :=
  reserving .usual "0.3.9" cpuCall twoWarmPods

/-- The request is served while the caller waits for the answer, then the message if there is
one. -/
def servedInTurn : List (Turn Party Site) :=
  List.replicate 5 (.call .caller) ++ List.replicate 40 (.call .function) ++
    List.replicate 6 (.call .caller) ++ List.replicate 40 (.call (.worker 0))

/-- A play in which the answer comes too late. -/
theorem servedInTurn_late :
    (play (serveSite false) beforeCall servedInTurn).1.any (becomesActive "r") = true ∧
      (play (serveSite false) beforeCall servedInTurn).1.any (becomesActive "rr") = true := by
  delta beforeCall reserving Party.program functionProgram workerProgram handleDirectClaim
    handleMessage
  rw [validateCliVersion_eq]
  decide +kernel

theorem reserve_oneReservation_inTime :
    OneReservation (play (serveSite true) beforeCall servedInTurn).1
        (play (serveSite true) beforeCall servedInTurn).2 ∧
      (play (serveSite true) beforeCall servedInTurn).1.any (becomesActive "r") = true := by
  have h : History SiteAnswers Surrounds beforeCall
      (play (serveSite true) beforeCall servedInTurn).1
      (play (serveSite true) beforeCall servedInTurn).2 :=
    .of_play (answers_serveSite true) beforeCall servedInTurn (by simp [servedInTurn])
  refine ⟨reserve_oneReservation h ?_, ?_⟩ <;>
    (delta beforeCall reserving Party.program functionProgram workerProgram handleDirectClaim
      handleMessage
     rw [validateCliVersion_eq]
     decide +kernel)

/-- The request is served, and the answer comes too late. The message claims the second pod. -/
theorem not_oneReservation_late :
    History SiteAnswers Surrounds beforeCall (play (serveSite false) beforeCall servedInTurn).1
        (play (serveSite false) beforeCall servedInTurn).2 ∧
      ¬ OneReservation (play (serveSite false) beforeCall servedInTurn).1
        (play (serveSite false) beforeCall servedInTurn).2 := by
  refine ⟨History.of_play (answers_serveSite false) beforeCall servedInTurn
    (by simp [servedInTurn]), fun hone => ?_⟩
  obtain ⟨hclaimed, hserved⟩ := servedInTurn_late
  obtain ⟨e, he, hactive⟩ := List.any_eq_true.mp hclaimed
  obtain ⟨e', he', hactive'⟩ := List.any_eq_true.mp hserved
  exact absurd ((hone "r" e he hactive).1 "rr" e' he' hactive') (by decide)

end CiInfra.GpuDev
