import CiInfra.GpuDev.ExpiryHandler
import CiInfra.Lib.Passes

/-!
# What a run of the expiry handler gets to see

Each pass of the handler goes over the answer to one query, and the handler never asks for a
second page. What falls off the page is neither expired nor failed, cancelled or cleaned up.
-/

namespace CiInfra.GpuDev.Lifecycle

open Interaction Fallible

/-- The reservations with a status, in the order of the index. -/
def World.withStatus (w : World) (status : String) : List Record :=
  w.allRecords.filter (·.status = status)

/-- Queries are answered with the first page, and there is time left. All else may be answered
in any way that calls are, and others may change anything before the next call. -/
def Op.AnswersPage (paging : Paging Record) : (op : Op) → World → op.Res → World → Prop
  | query status, w, r, _ => r = .ok (paging.firstPage (w.withStatus status))
  | remaining, _, r, _ => ∃ left : ℕ, r = left ∧ 120000 ≤ left
  | op, w, r, _ => ∃ w', op.Answers w r w'

/-- The passes over the reservations of one status. -/
inductive Pass
  | active
  | preparing
  | queued
  | pending
  | failed
  | expired
  | cancelled

/-- The status of the reservations in a pass. -/
def Pass.status : Pass → String
  | active => "active"
  | preparing => "preparing"
  | queued => "queued"
  | pending => "pending"
  | failed => "failed"
  | expired => "expired"
  | cancelled => "cancelled"

/-- What a pass does with a reservation. -/
def Pass.handle (cfg : Settings) (currentTime : ℤ) : Pass → Record → Lambda Unit
  | active => expireActive cfg currentTime
  | preparing => expirePreparing currentTime
  | queued | pending => expireQueued currentTime
  | failed => cleanupFailed cfg currentTime
  | expired | cancelled => cleanupExpired cfg currentTime

/-- The reservation ended within a window, if it has ended. -/
def endedWithin (currentTime window : ℤ) (endedAt : Option Stamp) : Bool :=
  (seconds? endedAt).any fun endedAt => currentTime - window ≤ endedAt

/-- The reservations that a pass is for: those with the status, and of those that have ended the
recent ones. -/
def Pass.concerns (currentTime : ℤ) (pass : Pass) (x : Record) : Bool :=
  match pass with
  | failed => endedWithin currentTime (24 * 3600) (x.failedAt.or x.createdAt)
  | expired | cancelled => endedWithin currentTime (7 * 24 * 3600) (x.expiredAt.or x.cancelledAt)
  | _ => true

/-- The calls of a run read a page of the reservations with a status. -/
def Reads (status : String) (page : List Record) (w : World)
    (t : List (Program.Served Op Op.Res World)) : Prop :=
  ∃ w', ⟨.query status, .ok page, w, w'⟩ ∈ t

/-- What the query of a pass gives is handled: for each reservation some block of the calls is a
whole run of what the pass does with it. -/
def Handles (paging : Paging Record) (cfg : Settings) (currentTime : ℤ) (pass : Pass)
    (t : List (Program.Served Op Op.Res World)) : Prop :=
  ∃ page w, Reads pass.status page w t ∧
    ∀ x ∈ page, RunsIn (Op.AnswersPage paging) (pass.handle cfg currentTime x).run t

/-- A run considers every reservation that a pass is for: the query for them gives all of these,
and what it gives is handled. -/
structure Considers (paging : Paging Record) (cfg : Settings) (currentTime : ℤ)
    (t : List (Program.Served Op Op.Res World)) (pass : Pass) : Prop where
  given : ∀ page w, Reads pass.status page w t →
    ∀ x ∈ w.withStatus pass.status, pass.concerns currentTime x = true → x ∈ page
  handled : Handles paging cfg currentTime pass t

/-- Whenever a run asks for the reservations with a status, those that the pass is for are on the
first page. -/
def OnFirstPages (paging : Paging Record) (currentTime : ℤ)
    (t : List (Program.Served Op Op.Res World)) : Prop :=
  ∀ pass : Pass, ∀ page w, Reads pass.status page w t →
    ∀ x ∈ w.withStatus pass.status, pass.concerns currentTime x = true →
      x ∈ paging.firstPage (w.withStatus pass.status)

/-! ### Nothing stops a pass -/

section Passes

variable (cfg : Settings) (currentTime : ℤ) (x : Record)

theorem raisesNothing_endIfOlder (seconds : ℤ) (p : Lambda Unit) :
    (endIfOlder currentTime seconds x p.logged).RaisesNothing := by
  unfold endIfOlder
  split
  · exact raisesNothing_pure _
  · exact (raisesNothing_logged p).whenever

theorem raisesNothing_checkPodExists (podName : String) :
    (checkPodExists podName).RaisesNothing :=
  raisesNothing_tryCatch _ fun e => by cases e <;> exact raisesNothing_pure _

theorem raisesNothing_finalizeLostPod : (finalizeLostPod cfg x).RaisesNothing := by
  refine (raisesNothing_checkPodExists _).bind fun podExists => ?_
  split
  · exact (raisesNothing_logged _).bind fun _ => raisesNothing_pure _
  · refine (raisesNothing_tryCatch _ fun _ => raisesNothing_pure _).bind fun dead => ?_
    split
    · exact raisesNothing_pure _
    · exact raisesNothing_orElseGive _ _

theorem raisesNothing_watchPod : (watchPod currentTime x).RaisesNothing := by
  refine RaisesNothing.bind ?_ fun _ => (raisesNothing_logged _).whenever
  unfold sendWarning
  split
  · exact raisesNothing_logged _
  · exact raisesNothing_pure _

theorem raisesNothing_expireActive : (expireActive cfg currentTime x).RaisesNothing := by
  unfold expireActive watchActive
  split
  · exact raisesNothing_logged _
  · split
    · exact (raisesNothing_finalizeLostPod cfg x).bind fun _ =>
        (raisesNothing_watchPod currentTime x).whenever
    · exact raisesNothing_watchPod currentTime x

theorem raisesNothing_releaseDisk : (releaseDisk x).RaisesNothing := by
  refine RaisesNothing.bind ?_ fun _ => (raisesNothing_logged _).whenever
  unfold diskOf
  split
  · exact raisesNothing_orElseGive _ _
  · exact raisesNothing_pure _

theorem raisesNothing_cleanupIfRecent (window : ℤ) (endedAt : Option Stamp) :
    (cleanupIfRecent cfg currentTime window endedAt x).RaisesNothing := by
  unfold cleanupIfRecent
  split
  · exact raisesNothing_pure _
  · refine RaisesNothing.whenever ((raisesNothing_checkPodExists _).bind fun podExists => ?_)
    split
    · exact raisesNothing_releaseDisk x
    · exact raisesNothing_logged _

/-- No reservation keeps a pass from going on. -/
theorem raisesNothing_handle (pass : Pass) :
    (pass.handle cfg currentTime x).RaisesNothing := by
  cases pass with
  | active => exact raisesNothing_expireActive cfg currentTime x
  | preparing => exact raisesNothing_endIfOlder currentTime x _ _
  | queued => exact raisesNothing_endIfOlder currentTime x _ _
  | pending => exact raisesNothing_endIfOlder currentTime x _ _
  | failed => exact raisesNothing_cleanupIfRecent cfg currentTime x _ _
  | expired => exact raisesNothing_cleanupIfRecent cfg currentTime x _ _
  | cancelled => exact raisesNothing_cleanupIfRecent cfg currentTime x _ _

end Passes

/-! ### The run -/

section Run

variable {paging : Paging Record} {cfg : Settings} {currentTime : ℤ}
  {t t₁ t₂ : List (Program.Served Op Op.Res World)}
  {A : Program.Served Op Op.Res World → Prop} {s : World}

theorem Reads.append_left {status : String} {page : List Record} {w : World}
    (h : Reads status page w t₁) (t₂ : List (Program.Served Op Op.Res World)) :
    Reads status page w (t₁ ++ t₂) :=
  h.imp fun _ => List.mem_append_left t₂

theorem Reads.append_right {status : String} {page : List Record} {w : World}
    (h : Reads status page w t₂) (t₁ : List (Program.Served Op Op.Res World)) :
    Reads status page w (t₁ ++ t₂) :=
  h.imp fun _ => List.mem_append_right t₁

theorem Handles.append_left {pass : Pass} (h : Handles paging cfg currentTime pass t₁)
    (t₂ : List (Program.Served Op Op.Res World)) :
    Handles paging cfg currentTime pass (t₁ ++ t₂) := by
  obtain ⟨page, w, hreads, hruns⟩ := h
  exact ⟨page, w, hreads.append_left t₂, fun x hx => (hruns x hx).append_left t₂⟩

theorem Handles.append_right {pass : Pass} (h : Handles paging cfg currentTime pass t₂)
    (t₁ : List (Program.Served Op Op.Res World)) :
    Handles paging cfg currentTime pass (t₁ ++ t₂) := by
  obtain ⟨page, w, hreads, hruns⟩ := h
  exact ⟨page, w, hreads.append_right t₁, fun x hx => (hruns x hx).append_right t₁⟩

theorem achieves_query (status : String) :
    (query status).Achieves (Op.AnswersPage paging) A s fun t page _ => Reads status page s t := by
  refine achieves_request fun res s' hres _ => ?_
  exact ⟨_, hres, s', by rw [show res = _ from hres]; exact List.mem_singleton_self _⟩

theorem achieves_pass (cfg : Settings) (pass : Pass) (page : List Record) :
    (page.forM (pass.handle cfg currentTime)).Achieves (Op.AnswersPage paging) A s fun t _ _ =>
      ∀ x ∈ page, RunsIn (Op.AnswersPage paging) (pass.handle cfg currentTime x).run t :=
  achieves_forM (fun x => raisesNothing_handle cfg currentTime x pass) page s

/-- As long as time remains, a loop handles every item. -/
theorem achieves_whileTimeRemains {β : Type} {body : β → Lambda Unit}
    (hbody : ∀ b, (body b).RaisesNothing) (bs : List β) (s : World) :
    (whileTimeRemains body bs).Achieves (Op.AnswersPage paging) A s
      fun t _ _ => ∀ b ∈ bs, RunsIn (Op.AnswersPage paging) (body b).run t := by
  induction bs generalizing s with
  | nil => exact achieves_pure (by simp)
  | cons b bs ih =>
    refine Achieves.bind (Q := fun _ (left : ℕ) _ => 120000 ≤ left) ?_ fun t₀ left s₀ hleft => ?_
    · refine achieves_request fun res s' hres _ => ?_
      obtain ⟨left, rfl, hleft⟩ := hres
      exact ⟨_, rfl, hleft⟩
    · rw [if_neg (by omega)]
      refine Achieves.bind (hbody b).achieves fun t₁ _ s₁ hrun =>
        (ih s₁).mono fun t₂ _ _ hrest => List.forall_mem_cons.mpr ⟨?_, fun c hc => ?_⟩
      · exact ((RunsIn.of_exec hrun).append_left t₂).append_right t₀
      · exact ((hrest c hc).append_right t₁).append_right t₀

theorem achieves_listLive :
    listLive.Achieves (Op.AnswersPage paging) A s fun t lists _ =>
      (∃ w, Reads "active" lists.1 w t) ∧ ∃ w, Reads "preparing" lists.2 w t := by
  refine Achieves.orElseGive ((achieves_query "active").bind fun t₁ active s₁ hactive =>
    (achieves_query "preparing").bind fun t₂ preparing s₂ hpreparing => achieves_pure ?_) _
  rw [List.append_nil]
  exact ⟨⟨s, hactive.append_left t₂⟩, s₁, hpreparing.append_right t₁⟩

theorem achieves_endReservations :
    (endReservations cfg currentTime).Achieves (Op.AnswersPage paging) A s fun t _ _ =>
      ∀ pass ∈ [Pass.active, .preparing, .queued, .pending],
        Handles paging cfg currentTime pass t := by
  refine achieves_listLive.bind fun t₁ lists s₁ hlists => ?_
  obtain ⟨⟨w, hactive⟩, w', hpreparing⟩ := hlists
  refine (achieves_pass cfg .preparing lists.2).bind fun t₂ _ s₂ hstuck =>
    (achieves_pass cfg .active lists.1).bind fun t₃ _ s₃ hover =>
    (achieves_query "queued").bind fun t₄ queued s₄ hqueued =>
    (achieves_query "pending").bind fun t₅ pending s₅ hpending =>
    (achieves_pass cfg .queued (queued ++ pending)).mono fun t₆ _ _ hstale => ?_
  simp only [List.mem_cons, List.not_mem_nil, or_false, forall_eq_or_imp, forall_eq]
  refine ⟨⟨_, w, hactive.append_left _, fun x hx => ?_⟩,
    ⟨_, w', hpreparing.append_left _, fun x hx => ?_⟩, ?_⟩
  · exact (((hover x hx).append_left _).append_right t₂).append_right t₁
  · exact ((hstuck x hx).append_left _).append_right t₁
  · have hboth : Handles paging cfg currentTime .queued (t₄ ++ (t₅ ++ t₆)) ∧
        Handles paging cfg currentTime .pending (t₄ ++ (t₅ ++ t₆)) := by
      refine ⟨⟨_, s₃, hqueued.append_left _, fun x hx => ?_⟩,
        ⟨_, s₄, (hpending.append_left t₆).append_right t₄, fun x hx => ?_⟩⟩
      · exact ((hstale x (List.mem_append_left _ hx)).append_right t₅).append_right t₄
      · exact ((hstale x (List.mem_append_right _ hx)).append_right t₅).append_right t₄
    exact hboth.imp (fun h => ((h.append_right t₃).append_right t₂).append_right t₁)
      fun h => ((h.append_right t₃).append_right t₂).append_right t₁

theorem achieves_cleanUp :
    (cleanUp cfg currentTime).Achieves (Op.AnswersPage paging) A s fun t _ _ =>
      ∀ pass ∈ [Pass.failed, .expired, .cancelled], Handles paging cfg currentTime pass t := by
  have hfailed : ∀ s, (cleanupFailedReservations cfg currentTime).Achieves
      (Op.AnswersPage paging) A s fun t _ _ => Handles paging cfg currentTime .failed t := by
    intro s
    refine Achieves.logged ((achieves_query "failed").bind fun t₁ failed s₁ hreads =>
      (achieves_pass cfg .failed failed).mono fun t₂ _ _ hruns => ?_)
    exact ⟨_, s, hreads.append_left t₂, fun x hx => (hruns x hx).append_right t₁⟩
  have hexpired : ∀ s, (cleanupExpiredReservations cfg currentTime).Achieves
      (Op.AnswersPage paging) A s fun t _ _ => Handles paging cfg currentTime .expired t ∧
        Handles paging cfg currentTime .cancelled t := by
    intro s
    refine Achieves.logged ((achieves_query "expired").bind fun t₁ expired s₁ hexpired =>
      (achieves_query "cancelled").bind fun t₂ cancelled s₂ hcancelled =>
      (achieves_whileTimeRemains (fun x => raisesNothing_handle cfg currentTime x .expired)
        (expired ++ cancelled) s₂).mono fun t₃ _ _ hruns => ?_)
    refine ⟨⟨_, s, hexpired.append_left _, fun x hx => ?_⟩,
      ⟨_, s₁, (hcancelled.append_left t₃).append_right t₁, fun x hx => ?_⟩⟩
    · exact ((hruns x (List.mem_append_left _ hx)).append_right t₂).append_right t₁
    · exact ((hruns x (List.mem_append_right _ hx)).append_right t₂).append_right t₁
  refine (raisesNothing_logged _).achieves.bind fun t₁ _ s₁ _ =>
    (hfailed s₁).bind fun t₂ _ s₂ hfailed' =>
    (raisesNothing_logged _).achieves.bind fun t₃ _ s₃ _ =>
    (hexpired s₃).bind fun t₄ _ s₄ hexpired' =>
    (raisesNothing_logged _).achieves.mono fun t₅ _ _ _ => ?_
  simp only [List.mem_cons, List.not_mem_nil, or_false, forall_eq_or_imp, forall_eq]
  refine ⟨(hfailed'.append_left _).append_right t₁, hexpired'.imp (fun h => ?_) fun h => ?_⟩
  · exact (((h.append_left t₅).append_right t₃).append_right t₂).append_right t₁
  · exact (((h.append_left t₅).append_right t₃).append_right t₂).append_right t₁

theorem achieves_handler :
    (do endReservations cfg currentTime; cleanUp cfg currentTime : Lambda Unit).Achieves
      (Op.AnswersPage paging) A s fun t _ _ => ∀ pass, Handles paging cfg currentTime pass t := by
  refine achieves_endReservations.bind fun t₁ _ s₁ hended =>
    achieves_cleanUp.mono fun t₂ _ _ hcleaned pass => ?_
  cases pass with
  | active => exact (hended .active (by simp)).append_left t₂
  | preparing => exact (hended .preparing (by simp)).append_left t₂
  | queued => exact (hended .queued (by simp)).append_left t₂
  | pending => exact (hended .pending (by simp)).append_left t₂
  | failed => exact (hcleaned .failed (by simp)).append_right t₁
  | expired => exact (hcleaned .expired (by simp)).append_right t₁
  | cancelled => exact (hcleaned .cancelled (by simp)).append_right t₁

/-- After it has read the time, a run raises nothing, and handles what the query for each status
gives. -/
theorem handles_of_exec {w w₁ w' : World} {now : ℚ} {r : Except Failure Unit}
    (h : Program.Exec (Op.AnswersPage paging) (expiryHandler cfg).run w
      (⟨.time, now, w, w₁⟩ :: t) r w') :
    ∀ pass, Handles paging cfg (PythonNumber.truncate now) pass (⟨.time, now, w, w₁⟩ :: t) := by
  obtain ⟨now', s₁, t', heq, -, hrest⟩ := Program.exec_call_iff.mp h
  cases heq
  obtain ⟨_, -, hhandles⟩ := achieves_handler (A := fun _ => True) t r w' hrest fun _ _ => trivial
  exact fun pass => (hhandles pass).append_right [_]

/-- What a query gives is the first page. -/
theorem Reads.eq_firstPage {p : Lambda Unit} {w w' v : World} {r : Except Failure Unit}
    (h : Program.Exec (Op.AnswersPage paging) p.run w t r w') {status : String}
    {page : List Record} (hreads : Reads status page v t) :
    page = paging.firstPage (v.withStatus status) := by
  obtain ⟨v', hmem⟩ := hreads
  exact Except.ok.inj (h.served _ hmem)

/-- A run considers every reservation that a pass is for exactly if these are on the first
pages. -/
theorem considers_iff {w w₁ w' : World} {now : ℚ} {r : Except Failure Unit}
    (h : Program.Exec (Op.AnswersPage paging) (expiryHandler cfg).run w
      (⟨.time, now, w, w₁⟩ :: t) r w') :
    (∀ pass, Considers paging cfg (PythonNumber.truncate now) (⟨.time, now, w, w₁⟩ :: t) pass) ↔
      OnFirstPages paging (PythonNumber.truncate now) (⟨.time, now, w, w₁⟩ :: t) := by
  constructor
  · intro hall pass page v hreads x hx hconcerns
    rw [← hreads.eq_firstPage h]
    exact (hall pass).given page v hreads x hx hconcerns
  · intro hpages pass
    refine ⟨fun page v hreads x hx hconcerns => ?_, handles_of_exec h pass⟩
    rw [hreads.eq_firstPage h]
    exact hpages pass page v hreads x hx hconcerns

/-- In particular if each status fits on one page. -/
theorem onFirstPages_of_fits
    (h : ∀ pass : Pass, ∀ page w, Reads pass.status page w t →
      (w.withStatus pass.status).length ≤ paging.size (w.withStatus pass.status)) :
    OnFirstPages paging currentTime t := by
  intro pass page w hreads x hx _
  rwa [paging.firstPage_of_fits (h pass page w hreads)]

end Run

end CiInfra.GpuDev.Lifecycle
