import CiInfra.GpuDev.ExpiryCoverage
import CiInfra.GpuDev.ExpirySafety
import CiInfra.GpuDev.QueueManagement
import Mathlib.Data.String.Basic

/-!
# What the periodic sweeps get to see

The sweep over the queue reads the first page of the queued reservations, as the expiry handler
does for every status, and goes over what it was given in the order of creation. Together the
sweeps consider every reservation exactly if nothing falls off the pages.
-/

namespace CiInfra.GpuDev

open Interaction Fallible

/-- The queued reservations, in the order of the index. -/
def World.queued (w : World) : List Attributes :=
  w.table.items.filter (Selection.status "queued").selects

/-- Queries of the status index are answered with the first page. All else may be answered in any
way that calls are, and others may change anything before the next call. -/
def Op.AnswersPage (paging : Paging Attributes) : (op : Op) → World → op.Res → World → Prop
  | find (.status s), w, r, _ =>
    r = .ok (paging.firstPage (w.table.items.filter (Selection.status s).selects))
  | op, w, r, _ => ∃ w', op.Answers w r w'

/-- A sweep considers every reservation of the queue: it is given all of them, and those that are
old enough are handled one after the other, in the order of their creation. -/
structure ConsidersQueue (paging : Paging Attributes) (cfg : Settings) (now : ℚ)
    (queue page : List Attributes) (t : List (Program.Served Op Op.Res World))
    (r : Except Failure Unit) : Prop where
  completes : r = .ok ()
  given : ∀ x ∈ queue, x ∈ page
  handled : ∃ order, order.Perm (page.filter (isOldEnough now.floor)) ∧
    order.Pairwise (fun x y => olderFirst x y = true) ∧
    ∃ before rest, t = before ++ rest ∧ InTurn (fun x block => ∃ position spotStatus,
      IsRun (Op.AnswersPage paging) (processQueued cfg position x spotStatus).run block) order rest

/-- The queue is on the first page, and can be sorted. -/
def QueueOnFirstPage (paging : Paging Attributes) (now : ℚ) (queue : List Attributes) : Prop :=
  (∀ x ∈ queue, x ∈ paging.firstPage queue) ∧
    sortable ((paging.firstPage queue).filter (isOldEnough now.floor)) = true

/-! ### The order of creation -/

/-- What is sorted by a key is in the order of the keys. -/
theorem pairwise_mergeSort_of_key {κ : Type} [LinearOrder κ] {l : List Attributes}
    (key : Attributes → κ)
    (h : ∀ a ∈ l, ∀ b ∈ l, olderFirst a b = decide (key a ≤ key b)) :
    (l.mergeSort olderFirst).Pairwise fun x y => olderFirst x y = true := by
  have hsorted := @List.pairwise_mergeSort κ (fun a b => decide (a ≤ b))
    (fun a b c hab hbc => by simpa using le_trans (by simpa using hab) (by simpa using hbc))
    (fun a b => by simpa using le_total a b) (l.map key)
  rw [← List.map_mergeSort h, List.pairwise_map] at hsorted
  refine hsorted.imp_of_mem fun {a b} ha hb hle => ?_
  rw [h a (List.mem_mergeSort.mp ha) b (List.mem_mergeSort.mp hb)]
  exact hle

/-- The number stored as the creation time. -/
def createdAtNumber (x : Attributes) : ℚ :=
  match x "created_at" with
  | some (.number t) => t
  | _ => 0

/-- What can be sorted is sorted in the order of creation. -/
theorem pairwise_olderFirst {l : List Attributes} (h : sortable l = true) :
    (l.mergeSort olderFirst).Pairwise fun x y => olderFirst x y = true := by
  simp only [sortable, Bool.or_eq_true, decide_eq_true_eq, List.all_eq_true] at h
  rcases h with (hshort | htexts) | hnumbers
  · have hle : (l.mergeSort olderFirst).length ≤ 1 := by simpa using hshort
    generalize l.mergeSort olderFirst = sorted at hle
    cases sorted with
    | nil => exact List.Pairwise.nil
    | cons a rest =>
      cases rest with
      | nil => exact List.pairwise_singleton _ a
      | cons b rest => simp at hle
  · refine pairwise_mergeSort_of_key (fun x => x.text "created_at") fun a ha b hb => ?_
    have ha := htexts a ha
    unfold olderFirst
    split
    · next hnumber _ => simp [hnumber] at ha
    · rfl
  · refine pairwise_mergeSort_of_key createdAtNumber fun a ha b hb => ?_
    have ha := hnumbers a ha
    have hb := hnumbers b hb
    unfold olderFirst
    split
    · next s t hs ht => simp [createdAtNumber, hs, ht]
    · next hnot =>
      split at ha
      · split at hb
        · exact absurd ‹b "created_at" = _› (hnot _ _ ‹_›)
        · cases hb
      · cases ha

/-! ### The run -/

variable {paging : Paging Attributes} {cfg : Settings}
  {t : List (Program.Served Op Op.Res World)} {A : Program.Served Op Op.Res World → Prop}

/-- The loop of the sweep handles every reservation in its turn. -/
theorem achieves_sweepLoop (position : ℕ) (spotStatus : SpotStatus) (sorted : List Attributes)
    (s : World) :
    (sweepLoop cfg position spotStatus sorted).Achieves (Op.AnswersPage paging) A s fun t _ _ =>
      InTurn (fun x block => ∃ position spotStatus,
        IsRun (Op.AnswersPage paging) (processQueued cfg position x spotStatus).run block)
        sorted t := by
  induction sorted generalizing position spotStatus s with
  | nil => exact achieves_pure trivial
  | cons x rest ih =>
    refine (raisesNothing_orElseGive _ _).achieves.bind fun t₁ status s₁ hrun =>
      (ih (position + 1) status s₁).mono fun t₂ _ _ hrest => ⟨t₁, t₂, rfl, ?_, hrest⟩
    obtain ⟨r, hprocessed⟩ := exec_orElseGive hrun
    exact ⟨position, spotStatus, s, r, s₁, hprocessed⟩

/-- The sweep, once it has the queue. -/
def sweepAfter (cfg : Settings) (old : List Attributes) : Lambda Unit :=
  if old.isEmpty then return ()
  else do
    let _ ← orElseGive (find (.status "active")) []
    let sorted ← sortQueued old
    sweepLoop cfg 1 none sorted

/-- What is old enough and can be sorted is handled in the order of creation. -/
theorem achieves_sweepAfter {old : List Attributes} (hsortable : sortable old = true) (s : World) :
    (sweepAfter cfg old).Achieves (Op.AnswersPage paging) A s fun t _ _ =>
      ∃ order, order.Perm old ∧ order.Pairwise (fun x y => olderFirst x y = true) ∧
        ∃ before rest, t = before ++ rest ∧ InTurn (fun x block => ∃ position spotStatus,
          IsRun (Op.AnswersPage paging) (processQueued cfg position x spotStatus).run block)
          order rest := by
  unfold sweepAfter
  split
  · next hempty =>
    rw [List.isEmpty_iff.mp hempty]
    exact achieves_pure ⟨[], List.Perm.refl _, List.Pairwise.nil, [], [], rfl, trivial⟩
  · refine (raisesNothing_orElseGive _ _).achieves.bind fun t₁ _ s₁ _ => ?_
    have hsorted : (sortQueued old).Achieves (Op.AnswersPage paging) A s₁ fun t sorted _ =>
        t = [] ∧ sorted = old.mergeSort olderFirst := by
      rw [sortQueued, if_pos hsortable]
      exact achieves_pure ⟨rfl, rfl⟩
    refine hsorted.bind fun t₂ sorted s₂ hgives => ?_
    obtain ⟨rfl, rfl⟩ := hgives
    exact (achieves_sweepLoop 1 none _ s₂).mono fun t₃ _ _ hturns => ⟨_, List.mergeSort_perm _ _,
      pairwise_olderFirst hsortable, t₁, t₃, rfl, hturns⟩

/-- What cannot be sorted makes the sweep raise. -/
theorem sortable_of_completes {old : List Attributes} {s s' : World}
    (h : Program.Exec (Op.AnswersPage paging) (sweepAfter cfg old).run s t (.ok ()) s') :
    sortable old = true := by
  by_contra hnot
  have hempty : old.isEmpty = false := by
    cases old with
    | nil => exact absurd rfl hnot
    | cons _ _ => rfl
  have hsorted : sortQueued old = throw (.error "'<' not supported between instances") := by
    rw [sortQueued, if_neg hnot]
  rw [sweepAfter, hempty, if_neg (by decide), hsorted] at h
  rcases exec_bind h with ⟨e, heq, -⟩ | ⟨_, _, _, _, -, -, hrest⟩
  · cases heq
  · cases (Program.exec_done_iff.mp hrest).2.1

/-- A sweep considers every reservation of the queue exactly if the queue is on the first page and
can be sorted. -/
theorem considersQueue_iff {w w₁ w₂ w' : World} {now : ℚ} {page : List Attributes}
    {r : Except Failure Unit}
    (h : Program.Exec (Op.AnswersPage paging) (processScheduledQueueManagement cfg).run w
      (⟨.epoch, now, w, w₁⟩ :: ⟨.find (.status "queued"), .ok page, w₁, w₂⟩ :: t) r w') :
    ConsidersQueue paging cfg now w₁.queued page t r ↔
      QueueOnFirstPage paging now w₁.queued := by
  obtain ⟨now', s₁, t', heq, -, hrest⟩ := Program.exec_call_iff.mp h
  cases heq
  obtain ⟨page', s₂, t'', heq, hpage, hsweep⟩ := Program.exec_call_iff.mp hrest
  cases heq
  have hpage : page = paging.firstPage w₁.queued := Except.ok.inj hpage
  subst hpage
  have hsweep : Program.Exec (Op.AnswersPage paging) (sweepAfter cfg
      ((paging.firstPage w₁.queued).filter (isOldEnough now.floor))).run w₂ t r w' := hsweep
  constructor
  · rintro ⟨rfl, hgiven, -⟩
    exact ⟨hgiven, sortable_of_completes hsweep⟩
  · rintro ⟨hgiven, hsortable⟩
    obtain ⟨_, rfl, hhandled⟩ :=
      achieves_sweepAfter (A := fun _ => True) hsortable w₂ t r w' hsweep fun _ _ => trivial
    exact ⟨rfl, hgiven, hhandled⟩

/-- A run of the expiry handler and a sweep consider every reservation that they are for exactly if
nothing of it falls off the first pages, and the queue can be sorted. -/
theorem sweepsConsider_iff (pages : Paging Lifecycle.Record) (queuePages : Paging Attributes)
    (expiryCfg : Lifecycle.Settings) (cfg : Settings) (v v₁ v' : Lifecycle.World)
    (w w₁ w₂ w' : World) (expiryNow now : ℚ) (page : List Attributes)
    (u : List (Program.Served Lifecycle.Op Lifecycle.Op.Res Lifecycle.World))
    (t : List (Program.Served Op Op.Res World)) (ended : Except Lifecycle.Failure Unit)
    (r : Except Failure Unit)
    (hexpiry : Program.Exec (Lifecycle.Op.AnswersPage pages) (Lifecycle.expiryHandler expiryCfg).run
      v (⟨.time, expiryNow, v, v₁⟩ :: u) ended v')
    (hsweep : Program.Exec (Op.AnswersPage queuePages) (processScheduledQueueManagement cfg).run
      w (⟨.epoch, now, w, w₁⟩ :: ⟨.find (.status "queued"), .ok page, w₁, w₂⟩ :: t) r w') :
    (∀ pass, Lifecycle.Considers pages expiryCfg (PythonNumber.truncate expiryNow)
        (⟨.time, expiryNow, v, v₁⟩ :: u) pass) ∧
      ConsidersQueue queuePages cfg now w₁.queued page t r ↔
    Lifecycle.OnFirstPages pages (PythonNumber.truncate expiryNow)
        (⟨.time, expiryNow, v, v₁⟩ :: u) ∧
      QueueOnFirstPage queuePages now w₁.queued :=
  and_congr (Lifecycle.considers_iff hexpiry) (considersQueue_iff hsweep)

/-! ### Pages of two items -/

/-- Pages of two items. -/
def twoItems {α : Type} : Paging α := ⟨fun _ => 2, 2, fun _ => le_rfl⟩

/-- All goes well, and queries are answered with the first page. -/
def pageServe (paging : Paging Lifecycle.Record) :
    (op : Lifecycle.Op) → Lifecycle.World → op.Res × Lifecycle.World
  | .query status, w => (.ok (paging.firstPage (w.withStatus status)), w)
  | op, w => Lifecycle.Script.fine.serve op w

theorem answersPage_pageServe (paging : Paging Lifecycle.Record) (op : Lifecycle.Op)
    (w : Lifecycle.World) : Lifecycle.Op.AnswersPage paging op w (pageServe paging op w).1
      (pageServe paging op w).2 := by
  cases op with
  | query status => rfl
  | remaining => exact ⟨900000, rfl, by decide⟩
  | _ => exact ⟨_, Lifecycle.Script.fine.answers_serve _ w⟩

/-- The same for the queue. -/
def pageScript (paging : Paging Attributes) : Script :=
  { Script.fine with find := fun s items => paging.firstPage (items.filter s.selects) }

theorem answersPage_serve (paging : Paging Attributes) (op : Op) (w : World) :
    op.AnswersPage paging w ((pageScript paging).serve op w).1
      ((pageScript paging).serve op w).2 := by
  cases op with
  | find s =>
    cases s with
    | status s => rfl
    | _ => exact ⟨w, rfl⟩
  | _ => exact ⟨_, (pageScript paging).answers_serve _ w⟩

/-- Two hours after launch, reservations that are over. -/
def overdue (ids : List String) : Lifecycle.World :=
  { Lifecycle.justOver with
    records := (ids.map fun id => (⟨id, { Lifecycle.twoHours with id := id }⟩ :
      Sigma fun _ : String => Lifecycle.Record)).toAList }

/-- Queued reservations. -/
def queuedRequests (ids : List String) : World where
  table := (ids.map fun id => (⟨id, .ofList [("reservation_id", .text id),
    ("status", .text "queued"), ("created_at", .text "2026-08-17T15:00:00"),
    ("gpu_type", .text "h100"), ("gpu_count", .number 1)]⟩ :
      Sigma fun _ : String => Attributes)).toAList
  pods := ∅
  nodes := []
  volumes := ∅

/-- The calls of a run of the expiry handler, after it has read the time. -/
def expiryCalls (w : Lifecycle.World) :
    List (Program.Served Lifecycle.Op Lifecycle.Op.Res Lifecycle.World) :=
  ((Lifecycle.expiryHandler .usual).run.exchanges (pageServe twoItems) w).tail

theorem exec_expiryCalls (w : Lifecycle.World) :
    Program.Exec (Lifecycle.Op.AnswersPage twoItems) (Lifecycle.expiryHandler .usual).run w
      (⟨.time, w.clock.1, w, w⟩ :: expiryCalls w)
      ((Lifecycle.expiryHandler .usual).run.run (pageServe twoItems) w).1
      ((Lifecycle.expiryHandler .usual).run.run (pageServe twoItems) w).2 :=
  Program.exec_run (answersPage_pageServe twoItems) (Lifecycle.expiryHandler .usual).run w

/-- The calls of a sweep, after it has read the time and the queue. -/
def sweepCalls (w : World) : List (Program.Served Op Op.Res World) :=
  ((processScheduledQueueManagement .usual).run.exchanges (pageScript twoItems).serve w).tail.tail

theorem exec_sweepCalls (w : World) :
    Program.Exec (Op.AnswersPage twoItems) (processScheduledQueueManagement .usual).run w
      (⟨.epoch, (1786984065 : ℚ), w, w⟩ ::
        ⟨.find (.status "queued"), .ok (twoItems.firstPage w.queued), w, w⟩ :: sweepCalls w)
      ((processScheduledQueueManagement .usual).run.run (pageScript twoItems).serve w).1
      ((processScheduledQueueManagement .usual).run.run (pageScript twoItems).serve w).2 :=
  Program.exec_run (answersPage_serve twoItems) (processScheduledQueueManagement .usual).run w

/-- How a sweep ends. -/
def sweepResult (w : World) : Except Failure Unit :=
  ((processScheduledQueueManagement .usual).run.run (pageScript twoItems).serve w).1

/-- Two overdue reservations and two queued ones are considered. -/
theorem sweepsConsider_two :
    (∀ pass, Lifecycle.Considers twoItems .usual
        (PythonNumber.truncate (overdue ["a", "b"]).clock.1)
        (⟨.time, (overdue ["a", "b"]).clock.1, overdue ["a", "b"], overdue ["a", "b"]⟩ ::
          expiryCalls (overdue ["a", "b"])) pass) ∧
      ConsidersQueue twoItems .usual 1786984065 (queuedRequests ["c", "d"]).queued
        (twoItems.firstPage (queuedRequests ["c", "d"]).queued)
        (sweepCalls (queuedRequests ["c", "d"])) (sweepResult (queuedRequests ["c", "d"])) := by
  refine (sweepsConsider_iff twoItems twoItems .usual .usual _ _ _ _ _ _ _ _ _ _ _ _ _ _
    (exec_expiryCalls (overdue ["a", "b"])) (exec_sweepCalls (queuedRequests ["c", "d"]))).mpr
    ⟨Lifecycle.onFirstPages_of_fits fun pass page w hreads => ?_, ?_, by decide +kernel⟩
  · obtain ⟨w', hmem⟩ := hreads
    have hfew : ∀ x ∈ expiryCalls (overdue ["a", "b"]), x.before.allRecords.length ≤ 2 := by
      decide +kernel
    rcases List.mem_cons.mp hmem with heq | hmem
    · cases heq
    · exact le_trans (List.length_filter_le _ _) (hfew _ hmem)
  · rw [twoItems.firstPage_of_fits (by decide +kernel)]
    exact fun x hx => hx

/-- Of three overdue reservations a run ends two. The third is not given to it, and is active
afterwards. -/
theorem not_sweepsConsider_three :
    ((((Lifecycle.expiryHandler .usual).run.run (pageServe twoItems)
        (overdue ["a", "b", "c"])).2.records.lookup "c").map (·.status)) = some "active" ∧
    ¬ ((∀ pass, Lifecycle.Considers twoItems .usual
        (PythonNumber.truncate (overdue ["a", "b", "c"]).clock.1)
        (⟨.time, (overdue ["a", "b", "c"]).clock.1, overdue ["a", "b", "c"],
          overdue ["a", "b", "c"]⟩ :: expiryCalls (overdue ["a", "b", "c"])) pass) ∧
      ConsidersQueue twoItems .usual 1786984065 (queuedRequests []).queued
        (twoItems.firstPage (queuedRequests []).queued) (sweepCalls (queuedRequests []))
        (sweepResult (queuedRequests []))) := by
  refine ⟨by decide +kernel, fun hconsiders => ?_⟩
  have hgiven := (hconsiders.1 .active).given _ (overdue ["a", "b", "c"])
    ⟨overdue ["a", "b", "c"], List.mem_cons_of_mem _ List.mem_cons_self⟩
    { Lifecycle.twoHours with id := "c" } (by decide +kernel) rfl
  revert hgiven
  decide +kernel

end CiInfra.GpuDev
