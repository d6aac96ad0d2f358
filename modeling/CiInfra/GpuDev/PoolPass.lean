import CiInfra.GpuDev.PoolTurnover

/-!
# What a pass over the pool does

With the ages and images of pods that it is shown, and every call going through, a pass of
`reconcile_warm_pool` over one type is determined by the pods that are listed for the type, but for
the names of the pods that it creates.
-/

namespace CiInfra.GpuDev

open Interaction Fallible Program
open Kube (Dict)

/-! ### Runs in which all calls go through -/

/-- The calls of the upkeep of the pool that may fail do not. -/
def Op.goesThrough : (op : Op) → op.Res → Prop
  | .listWarmPods _ _, r => ∃ pods, r = .ok pods
  | .createPod _ _, r => r = .ok ()
  | .patchPod _ _ _, r => r = .ok ()
  | .deletePod _, r => r = .ok ()
  | .ask _, r => ∃ b, r = .ok b
  | .read _, r => ∃ s, r = .ok s
  | .count _, r => ∃ n, r = .ok n
  | _, _ => True

/-- What is read about the pods of the pool: the age of each, the digest of the image that it runs,
and the digest that it should run; an empty text stands for none. -/
structure Readings where
  age : String → ℚ
  image : String → String
  currentImage : String

/-- The call shows what there is to be read. -/
def Readings.shows (rd : Readings) : (op : Op) → op.Res → Prop
  | .count (.podAge name), r => r = .ok (rd.age name)
  | .read (.podImage name), r => r = .ok (rd.image name)
  | .read .currentImage, r => r = .ok rd.currentImage
  | _, _ => True

/-- The call goes through, shows what there is to be read, and creates pods of age zero. -/
structure Readings.Goes (rd : Readings) (x : Exchange) : Prop where
  through : x.op.goesThrough x.res
  shows : rd.shows x.op x.res
  young : ∀ name p, x.op = .createPod name p → rd.age name = 0

/-- The pods that the calls delete. -/
def deletedIn (t : List Exchange) : List String :=
  t.filterMap fun x => match x.op with
    | .deletePod name => some name
    | _ => none

/-- The pods that the calls create. -/
def createdIn (t : List Exchange) : List String :=
  t.filterMap fun x => match x.op with
    | .createPod name _ => some name
    | _ => none

@[simp] theorem deletedIn_append (t t' : List Exchange) :
    deletedIn (t ++ t') = deletedIn t ++ deletedIn t' := List.filterMap_append

@[simp] theorem createdIn_append (t t' : List Exchange) :
    createdIn (t ++ t') = createdIn t ++ createdIn t' := List.filterMap_append

/-- The calls turn over pods of a kind. -/
structure Turns (m : Dict → Bool) (new : String → Pod) (d c : List String) (w : World)
    (t : List Exchange) (w' : World) : Prop where
  deleted : deletedIn t = d
  created : createdIn t = c
  alters : Alters m new d c w w'

section Turns

variable {rd : Readings} {cfg : Settings} {m : Dict → Bool} {new : String → Pod}
  {d d' c c' : List String} {w w₁ w' : World} {t t' : List Exchange}

theorem Turns.refl (w : World) : Turns m new [] [] w [] w := ⟨rfl, rfl, .refl w⟩

theorem Turns.trans (h : Turns m new d c w t w₁) (h' : Turns m new d' c' w₁ t' w')
    (hkept : ∀ n ∈ c, n ∉ d') : Turns m new (d ++ d') (c ++ c') w (t ++ t') w' where
  deleted := by rw [deletedIn_append, h.deleted, h'.deleted]
  created := by rw [createdIn_append, h.created, h'.created]
  alters := h.alters.trans h'.alters hkept

/-- Deletions, and what follows them. -/
theorem Turns.andThen (h : Turns m new d [] w t w₁) (h' : Turns m new d' c' w₁ t' w') :
    Turns m new (d ++ d') c' w (t ++ t') w' := h.trans h' fun _ hn => nomatch hn

/-- The calls turn over nothing. -/
structure Idles (w : World) (t : List Exchange) (w' : World) : Prop where
  deleted : deletedIn t = []
  created : createdIn t = []
  same : w' = w

theorem Idles.turns (h : Idles w t w') : Turns m new [] [] w t w' :=
  ⟨h.deleted, h.created, h.same ▸ Alters.refl w'⟩

theorem Idles.andThen (h : Idles w t w₁) (h' : Idles w₁ t' w') : Idles w (t ++ t') w' where
  deleted := by rw [deletedIn_append, h.deleted, h'.deleted, List.append_nil]
  created := by rw [createdIn_append, h.created, h'.created, List.append_nil]
  same := h'.same.trans h.same

/-- The program runs through, and `Q` holds of its calls, its result and the world at its end. -/
abbrev Reaches (rd : Readings) {α : Type} (p : Lambda α) (w : World)
    (Q : List Exchange → α → World → Prop) : Prop := p.Achieves Op.Answers rd.Goes w Q

theorem reaches_quiet {α : Type} {op : Op} {answer : op.Res → Except Failure α} {P : α → Prop}
    (hq : op.IsQuiet = true)
    (hanswer : ∀ res, op.goesThrough res → rd.shows op res → ∃ a, answer res = .ok a ∧ P a) :
    Reaches rd (request op answer) w fun t a w' => P a ∧ Idles w t w' := by
  refine achieves_request fun res w' hres hgoes => ?_
  obtain ⟨a, ha, hP⟩ := hanswer res hgoes.through hgoes.shows
  refine ⟨a, ha, hP, ?_, ?_, Op.eq_of_isQuiet hres hq⟩
  · cases op <;> first | rfl | cases hq
  · cases op <;> first | rfl | cases hq

theorem reaches_attempt (o : Outside) :
    Reaches rd (attempt o) w fun t _ w' => Idles w t w' := by
  refine (reaches_quiet (P := fun _ => True) rfl fun res hres _ => ?_).mono fun _ _ _ h => h.2
  obtain ⟨b, rfl⟩ := hres
  exact ⟨(), rfl, trivial⟩

theorem reaches_ask (o : Outside) :
    Reaches rd (ask o) w fun t _ w' => Idles w t w' := by
  refine (reaches_quiet (P := fun _ => True) rfl fun res hres _ => ?_).mono fun _ _ _ h => h.2
  obtain ⟨b, rfl⟩ := hres
  exact ⟨b, rfl, trivial⟩

theorem reaches_read (o : Outside) :
    Reaches rd (read o) w fun t _ w' => Idles w t w' := by
  refine (reaches_quiet (P := fun _ => True) rfl fun res hres _ => ?_).mono fun _ _ _ h => h.2
  obtain ⟨b, rfl⟩ := hres
  exact ⟨b, rfl, trivial⟩

theorem reaches_count (o : Outside) :
    Reaches rd (count o) w fun t _ w' => Idles w t w' := by
  refine (reaches_quiet (P := fun _ => True) rfl fun res hres _ => ?_).mono fun _ _ _ h => h.2
  obtain ⟨b, rfl⟩ := hres
  exact ⟨b, rfl, trivial⟩

/-- The pod is there and of the kind. -/
def World.holds (w : World) (m : Dict → Bool) (name : String) : Prop :=
  ∃ q, w.pods.lookup name = some q ∧ m q.labels = true

theorem Turns.holds (h : Turns m new d [] w t w') {name : String} (hname : w.holds m name) :
    w'.holds m name := h.alters.lookup_kind hname

theorem Idles.holds (h : Idles w t w') {name : String} (hname : w.holds m name) :
    w'.holds m name := h.same ▸ hname

/-! ### Recycling -/

variable (new)

theorem reaches_recycleWarmPod {p : NamedPod} (hp : w.holds m p.1) :
    Reaches rd (recycleWarmPod p) w fun t a w' => a = true ∧ Turns m new [p.1] [] w t w' := by
  refine Achieves.orElseGive ?_ false
  refine Achieves.bind (Q := fun t _ w' => Turns m new [p.1] [] w t w') ?_ fun t₁ _ w₁ h₁ => ?_
  · refine achieves_request fun res w' hres hgoes => ?_
    obtain rfl : res = .ok () := hgoes.through
    exact ⟨(), rfl, rfl, rfl, .deletePod hp hres⟩
  refine (reaches_attempt _).logged.bind fun t₂ _ w₂ h₂ => ?_
  refine Achieves.bind (Q := fun t _ w' => Idles w₂ t w') ?_ fun t₃ _ w₃ h₃ => ?_
  · exact Achieves.whenever (fun _ => (reaches_attempt _).logged) fun _ => ⟨rfl, rfl, rfl⟩
  exact achieves_pure ⟨rfl, h₁.andThen (h₂.turns.andThen (h₃.turns.andThen (.refl w₃)))⟩

theorem reaches_recycle {p : NamedPod} (hp : w.holds m p.1) :
    Reaches rd (recycle p) w fun t _ w' => Turns m new [p.1] [] w t w' :=
  (reaches_recycleWarmPod new hp).bind fun _ _ w₁ h₁ => achieves_pure (h₁.2.andThen (.refl w₁))

theorem reaches_recycleAll {ps : List NamedPod} (hps : ∀ p ∈ ps, w.holds m p.1) :
    Reaches rd (ps.forM recycle) w fun t _ w' => Turns m new (ps.map Prod.fst) [] w t w' := by
  induction ps generalizing w with
  | nil => exact achieves_pure (.refl w)
  | cons p ps ih =>
    obtain ⟨hp, hps⟩ := List.forall_mem_cons.mp hps
    exact (reaches_recycle new hp).bind fun t₁ _ w₁ h₁ =>
      (ih fun q hq => h₁.holds (hps q hq)).mono fun _ _ _ h => h₁.andThen h

/-- The pod is finished, or ready and too old. -/
def Readings.isSpent (rd : Readings) (cfg : Settings) (p : NamedPod) : Bool :=
  p.2.phase == "Failed" || p.2.phase == "Succeeded" ||
    (p.2.labels "warm-state" == some "ready" && cfg.warmPodMaxAgeHours * 3600 < rd.age p.1)

/-- The listed standby pods that are spent. -/
def Readings.spentOf (rd : Readings) (cfg : Settings) (pods : List NamedPod) : List NamedPod :=
  pods.filter fun p => !p.2.isClaimed && rd.isSpent cfg p

/-- The listed standby pods that live on. -/
def Readings.liveOf (rd : Readings) (cfg : Settings) (pods : List NamedPod) : List NamedPod :=
  pods.filter fun p => !p.2.isClaimed && !rd.isSpent cfg p

theorem reaches_isSpent (p : NamedPod) :
    Reaches rd (isSpent cfg p) w fun t a w' => a = rd.isSpent cfg p ∧ Idles w t w' := by
  refine Achieves.bind (Q := fun t age w' => age = rd.age p.1 ∧ Idles w t w') ?_
    fun t₁ age w₁ h₁ => ?_
  · refine Achieves.orElseGive (reaches_quiet rfl fun res _ hshows => ?_) 0
    exact ⟨rd.age p.1, hshows, rfl⟩
  · obtain ⟨rfl, h₁⟩ := h₁
    exact achieves_pure ⟨rfl, by simpa using h₁⟩

/-- The spent pods are recycled, and the others live on. -/
theorem reaches_recycleSpent {pods : List NamedPod} (hpods : ∀ p ∈ pods, w.holds m p.1) :
    Reaches rd (recycleSpent cfg pods) w fun t live w' => live = rd.liveOf cfg pods ∧
      Turns m new ((rd.spentOf cfg pods).map Prod.fst) [] w t w' := by
  induction pods generalizing w with
  | nil => exact achieves_pure ⟨rfl, .refl w⟩
  | cons p ps ih =>
    obtain ⟨hp, hps⟩ := List.forall_mem_cons.mp hpods
    rw [recycleSpent]
    split
    · have hclaimed : p.2.isClaimed = true := ‹_›
      simpa [Readings.liveOf, Readings.spentOf, hclaimed] using ih hps
    · have hclaimed : p.2.isClaimed = false := by simpa using ‹¬ p.2.isClaimed = true›
      refine (reaches_isSpent p).bind fun t₁ spent w₁ h₁ => ?_
      obtain ⟨rfl, hidle⟩ := h₁
      have h₁ : Turns m new [] [] w t₁ w₁ := hidle.turns
      split
      · have hspent : rd.isSpent cfg p = true := ‹_›
        refine (reaches_recycle new (h₁.holds hp)).bind fun t₂ _ w₂ h₂ =>
          (ih fun q hq => h₂.holds (h₁.holds (hps q hq))).mono fun t₃ live w₃ h₃ => ?_
        refine ⟨by simp [h₃.1, Readings.liveOf, hspent], ?_⟩
        simpa [Readings.spentOf, hclaimed, hspent] using h₁.andThen (h₂.andThen h₃.2)
      · have hspent : rd.isSpent cfg p = false := by simpa using ‹¬ rd.isSpent cfg p = true›
        refine (ih fun q hq => h₁.holds (hps q hq)).bind fun t₂ live w₂ h₂ => achieves_pure ?_
        refine ⟨by simp [h₂.1, Readings.liveOf, hclaimed, hspent], ?_⟩
        simpa [Readings.spentOf, hspent] using h₁.andThen (h₂.2.andThen (.refl w₂))

/-- The pod is ready, and runs an image that is known to be another than the current one. -/
def Readings.isOutdated (rd : Readings) (p : NamedPod) : Bool :=
  rd.currentImage ≠ "" && p.2.labels "warm-state" == some "ready" && rd.image p.1 ≠ "" &&
    rd.image p.1 ≠ rd.currentImage

/-- One outdated pod is rotated out. -/
theorem reaches_rotateOne {pods : List NamedPod} (hcurrent : rd.currentImage ≠ "")
    (hpods : ∀ p ∈ pods, w.holds m p.1) :
    Reaches rd (rotateOne rd.currentImage pods) w fun t live w' =>
      live = pods.eraseP rd.isOutdated ∧
        Turns m new ((pods.find? rd.isOutdated).toList.map Prod.fst) [] w t w' := by
  induction pods generalizing w with
  | nil => exact achieves_pure ⟨rfl, .refl w⟩
  | cons p ps ih =>
    obtain ⟨hp, hps⟩ := List.forall_mem_cons.mp hpods
    have hnext : ∀ t₁ w₁, rd.isOutdated p = false → Turns m new [] [] w t₁ w₁ →
        Reaches rd (do
          let live ← rotateOne rd.currentImage ps
          return p :: live) w₁ fun t live w' => live = (p :: ps).eraseP rd.isOutdated ∧
            Turns m new (((p :: ps).find? rd.isOutdated).toList.map Prod.fst) []
            w (t₁ ++ t) w' := by
      intro t₁ w₁ hout h₁
      refine (ih fun q hq => h₁.holds (hps q hq)).bind fun t₂ live w₂ h₂ => achieves_pure ?_
      rw [List.eraseP_cons_of_neg (by simp [hout]), List.find?_cons_of_neg (by simp [hout])]
      refine ⟨by rw [h₂.1], ?_⟩
      simpa using h₁.andThen (h₂.2.andThen (.refl w₂))
    rw [rotateOne]
    split
    · have hnotReady : p.2.labels "warm-state" ≠ some "ready" := ‹_›
      exact hnext [] w (by simp [Readings.isOutdated, hnotReady]) (.refl w)
    · have hready : p.2.labels "warm-state" = some "ready" := by
        simpa using ‹¬ p.2.labels "warm-state" ≠ some "ready"›
      refine Achieves.bind (Q := fun t running w' => running = rd.image p.1 ∧ Idles w t w') ?_
        fun t₁ running w₁ h₁ => ?_
      · refine Achieves.orElseGive (reaches_quiet rfl fun res _ hshows => ?_) ""
        exact ⟨rd.image p.1, hshows, rfl⟩
      obtain ⟨rfl, hidle⟩ := h₁
      have h₁ : Turns m new [] [] w t₁ w₁ := hidle.turns
      split
      · have hdiffers := ‹(rd.image p.1 ≠ "" && rd.image p.1 ≠ rd.currentImage) = true›
        have hout : rd.isOutdated p = true := by
          simpa [Readings.isOutdated, hcurrent, hready] using hdiffers
        refine (reaches_recycleWarmPod new (h₁.holds hp)).bind fun t₂ recycled w₂ h₂ => ?_
        obtain ⟨rfl, h₂⟩ := h₂
        refine achieves_pure ⟨by simp [hout], ?_⟩
        rw [List.find?_cons_of_pos hout]
        simpa using h₁.andThen (h₂.andThen (.refl w₂))
      · have hout : rd.isOutdated p = false := by
          have hsame := ‹¬ (rd.image p.1 ≠ "" && rd.image p.1 ≠ rd.currentImage) = true›
          simp only [Bool.not_eq_true] at hsame
          simp only [Readings.isOutdated, Bool.and_assoc, hsame, Bool.and_false]
        exact hnext t₁ w₁ hout h₁

/-! ### Filling up -/

theorem reaches_listWarmPods (gpuType : Option String) :
    Reaches rd (listWarmPods gpuType) w fun t pods w' =>
      pods = w.warmPods gpuType none ∧ Idles w t w' := by
  refine achieves_request fun res w' hres hgoes => ?_
  obtain ⟨pods, rfl⟩ := hgoes.through
  exact ⟨pods, rfl, (Option.some.inj (hres.2 pods rfl)).symm, rfl, rfl, hres.1⟩

theorem reaches_patchPod {name : String} {annotations : List (String × Option String)}
    (hname : w.holds m name) :
    Reaches rd (patchPod name [] annotations) w fun t _ w' => Turns m new [] [] w t w' := by
  refine achieves_request fun res w' hres hgoes => ?_
  obtain rfl : res = .ok () := hgoes.through
  exact ⟨(), rfl, rfl, rfl, .patchPod hname hres⟩

theorem reaches_provisionWarmPod {p : NamedPod} (hp : w.holds m p.1) :
    Reaches rd (provisionWarmPod p) w fun t _ w' => Turns m new [] [] w t w' := by
  unfold provisionWarmPod
  split
  · exact achieves_pure (.refl w)
  refine Achieves.bind (Q := fun t _ w' => Idles w t w') ?_ fun t₁ nodePort w₁ h₁ => ?_
  · exact Achieves.orElseGive ((reaches_count _).bind fun _ _ w₁ h₁ => achieves_pure
      (by simpa using h₁)) none
  cases nodePort with
  | none => exact achieves_pure (by simpa using h₁.turns)
  | some nodePort =>
    refine (reaches_read _).bind fun t₂ _ w₂ h₂ => ((reaches_read _).orElseGive _).bind
      fun t₃ _ w₃ h₃ => ((reaches_read _).orElseGive _).bind fun t₄ _ w₄ h₄ =>
      (reaches_ask _).bind fun t₅ dnsEnabled w₅ h₅ => ?_
    refine Achieves.bind (Q := fun t _ w' => Idles w₅ t w') (Achieves.orElseGive ?_ _)
      fun t₆ _ w₆ h₆ => ?_
    · split
      · exact (reaches_read _).bind fun _ _ w₇ h₇ => (reaches_attempt _).bind fun _ _ w₈ h₈ =>
          achieves_pure (by simpa using h₇.andThen h₈)
      · exact achieves_pure ⟨rfl, rfl, rfl⟩
    · have hquiet := h₁.andThen (h₂.andThen (h₃.andThen (h₄.andThen (h₅.andThen h₆))))
      refine (reaches_patchPod new (hquiet.holds hp)).mono fun t₇ _ w₇ h₇ => ?_
      simpa [List.append_assoc] using hquiet.turns.andThen h₇

theorem reaches_provisionAll {ps : List NamedPod} (hps : ∀ p ∈ ps, w.holds m p.1) :
    Reaches rd (ps.forM fun p => logged (provisionWarmPod p)) w fun t _ w' =>
      Turns m new [] [] w t w' := by
  induction ps generalizing w with
  | nil => exact achieves_pure (.refl w)
  | cons p ps ih =>
    obtain ⟨hp, hps⟩ := List.forall_mem_cons.mp hps
    exact (reaches_provisionWarmPod new hp).logged.bind fun t₁ _ w₁ h₁ =>
      (ih fun q hq => h₁.holds (hps q hq)).mono fun _ _ _ h => h₁.andThen h

end Turns

/-! ### The pods of one type -/

/-- The labels of a warm pod of a type. -/
def isOfKind (gpuType : String) (labels : Dict) : Bool :=
  labels "app" == some "gpu-dev-warm" && labels "warm-gpu-type" == some gpuType

/-- A pod that `_create_warm_pod` creates. -/
def newWarmPod (gpuType podName : String) : Pod where
  labels := dictOf [("app", "gpu-dev-warm"), ("reservation", podName), ("warm-state", "ready"),
    ("warm-gpu-type", gpuType), ("warm-gpu-count", toString (warmGpuCount gpuType))]
  annotations := dictOf []
  phase := "Pending"
  nodeName := none
  containers := [podRequests gpuType (warmGpuCount gpuType)]
  deletionRequested := false
  peerPods := []
  volume := none

theorem isOfKind_newWarmPod (gpuType podName : String) :
    isOfKind gpuType (newWarmPod gpuType podName).labels = true := by
  simp [isOfKind, newWarmPod, dictOf, List.lookup_cons]

/-- What a pass turns over for a type. -/
abbrev TurnsType (gpuType : String) (d c : List String) (w : World) (t : List Exchange)
    (w' : World) : Prop := Turns (isOfKind gpuType) (newWarmPod gpuType) d c w t w'

section Passes

variable {rd : Readings} {cfg : Settings} {d : List String} {w w₁ w' : World} {t t' : List Exchange}

theorem reaches_createWarmPod (gpuType : String) :
    Reaches rd (createWarmPod gpuType (warmGpuCount gpuType)) w fun t _ w' =>
      ∃ name, rd.age name = 0 ∧ TurnsType gpuType [] [name] w t w' := by
  refine Achieves.bind (Q := fun t _ w' => Idles w t w') ?_ fun t₁ generated w₁ h₁ => ?_
  · exact (reaches_quiet (P := fun _ => True) rfl fun res _ _ => ⟨res, rfl, trivial⟩).mono
      fun _ _ _ h => h.2
  refine Achieves.bind (Q := fun t _ w' => ∃ name, rd.age name = 0 ∧
    TurnsType gpuType [] [name] w₁ t w') ?_ fun t₂ _ w₂ h₂ => ?_
  · refine achieves_request fun res w' hres hgoes => ?_
    obtain rfl : res = .ok () := hgoes.through
    refine ⟨(), rfl, _, hgoes.young _ _ rfl, rfl, rfl, .createPod ?_ ?_ hres⟩
    · exact isOfKind_newWarmPod gpuType _
    · rfl
  obtain ⟨name, hyoung, h₂⟩ := h₂
  refine Achieves.mono (Q := fun t _ w' => Idles w₂ t w') (Achieves.logged
    ((reaches_count _).bind fun t₃ _ w₃ h₃ =>
      (reaches_attempt _).mono fun t₄ _ w₄ h₄ => h₃.andThen h₄)) fun t₃ _ w₃ h₃ => ?_
  exact ⟨name, hyoung, h₁.turns.andThen (h₂.trans h₃.turns (by simp))⟩

/-- Filling up creates as many pods as are missing. -/
theorem reaches_createAll (gpuType : String) (k : ℕ) :
    Reaches rd ((List.replicate k gpuType).forM fun t => createWarmPod t (warmGpuCount t)) w
      fun t _ w' => ∃ c, c.length = k ∧ (∀ name ∈ c, rd.age name = 0) ∧
        TurnsType gpuType [] c w t w' := by
  induction k generalizing w with
  | zero => exact achieves_pure ⟨[], rfl, by simp, .refl w⟩
  | succ k ih =>
    refine (reaches_createWarmPod gpuType).bind fun t₁ _ w₁ h₁ => ih.mono fun t₂ _ w₂ h₂ => ?_
    obtain ⟨name, hname, h₁⟩ := h₁
    obtain ⟨c, hlength, hyoung, h₂⟩ := h₂
    exact ⟨name :: c, by rw [List.length_cons, hlength], List.forall_mem_cons.mpr ⟨hname, hyoung⟩,
      h₁.trans h₂ (by simp)⟩

/-- The listed pods that a pass with a target keeps. -/
def Readings.keptOf (rd : Readings) (cfg : Settings) (target : ℕ) (pods : List NamedPod) :
    List NamedPod := ((rd.liveOf cfg pods).take target).eraseP rd.isOutdated

/-- The listed pods that a pass with a target deletes: what is spent, what is too many, and at most
one that is outdated. -/
def Readings.deletedOf (rd : Readings) (cfg : Settings) (target : ℕ) (pods : List NamedPod) :
    List NamedPod :=
  rd.spentOf cfg pods ++ (rd.liveOf cfg pods).drop target ++
    (((rd.liveOf cfg pods).take target).find? rd.isOutdated).toList

/-- A listed pod of a type is one of the kind. -/
theorem holds_of_mem_warmPods {gpuType : String} {p : NamedPod}
    (hp : p ∈ w.warmPods (some gpuType) none) : w.holds (isOfKind gpuType) p.1 := by
  obtain ⟨hmem, hkind⟩ := List.mem_filter.mp hp
  exact ⟨p.2, World.mem_namedPods.mp hmem, by simpa [Pod.matchesWarm, isOfKind] using hkind⟩

/-- As long as it is not known which image is current, no pod is outdated. -/
theorem Readings.isOutdated_of_unknown (h : rd.currentImage = "") (p : NamedPod) :
    rd.isOutdated p = false := by simp [Readings.isOutdated, h]

/-- What a pass over one type does. -/
theorem reaches_reconcileType (gpuType : String) (target : ℕ) :
    Reaches rd (reconcileType cfg rd.currentImage gpuType target) w fun t _ w' =>
      ∃ c, c.length = target - (rd.keptOf cfg target (w.warmPods (some gpuType) none)).length ∧
        (∀ name ∈ c, rd.age name = 0) ∧
        TurnsType gpuType
          ((rd.deletedOf cfg target (w.warmPods (some gpuType) none)).map Prod.fst) c w t w' := by
  refine (reaches_listWarmPods (some gpuType)).bind fun t₁ pods w₁ h₁ => ?_
  obtain ⟨rfl, hlisted⟩ := h₁
  have hpods : ∀ p ∈ w.warmPods (some gpuType) none, w₁.holds (isOfKind gpuType) p.1 :=
    fun p hp => hlisted.holds (holds_of_mem_warmPods hp)
  have h₁ : TurnsType gpuType [] [] w t₁ w₁ := hlisted.turns
  refine (reaches_recycleSpent (newWarmPod gpuType) hpods).bind fun t₂ live w₂ h₂ => ?_
  obtain ⟨rfl, h₂⟩ := h₂
  have hlive : ∀ p ∈ rd.liveOf cfg (w.warmPods (some gpuType) none),
      w₂.holds (isOfKind gpuType) p.1 := fun p hp => h₂.holds (hpods p (List.mem_filter.mp hp).1)
  refine (reaches_recycleAll (newWarmPod gpuType) fun p hp =>
    hlive p (List.mem_of_mem_drop hp)).bind fun t₃ _ w₃ h₃ => ?_
  have hkept : ∀ p ∈ (rd.liveOf cfg (w.warmPods (some gpuType) none)).take target,
      w₃.holds (isOfKind gpuType) p.1 := fun p hp => h₃.holds (hlive p (List.mem_of_mem_take hp))
  -- what follows the rotation, on the pods that it has left
  have hrest : ∀ (t₄ : List Exchange) (kept : List NamedPod) (w₄ : World),
      (kept = rd.keptOf cfg target (w.warmPods (some gpuType) none) ∧ TurnsType gpuType
        ((((rd.liveOf cfg (w.warmPods (some gpuType) none)).take target).find?
          rd.isOutdated).toList.map Prod.fst) [] w₃ t₄ w₄) →
      Reaches rd (do
        (kept.filter fun p => p.2.labels "warm-state" == some "ready").forM fun p =>
          logged (provisionWarmPod p)
        logged ((List.replicate (target - kept.length) gpuType).forM fun t =>
          createWarmPod t (warmGpuCount t))) w₄ fun t _ w' =>
        ∃ c, c.length = target - (rd.keptOf cfg target (w.warmPods (some gpuType) none)).length ∧
          (∀ name ∈ c, rd.age name = 0) ∧
          TurnsType gpuType
            ((rd.deletedOf cfg target (w.warmPods (some gpuType) none)).map Prod.fst)
            c w (t₁ ++ (t₂ ++ (t₃ ++ (t₄ ++ t)))) w' := by
    rintro t₄ kept w₄ ⟨rfl, h₄⟩
    refine (reaches_provisionAll (newWarmPod gpuType) fun p hp => h₄.holds (hkept p
      (List.mem_of_mem_eraseP (List.mem_filter.mp hp).1))).bind fun t₅ _ w₅ h₅ => ?_
    refine (reaches_createAll gpuType _).logged.mono fun t₆ _ w₆ h₆ => ?_
    obtain ⟨c, hlength, hyoung, h₆⟩ := h₆
    refine ⟨c, hlength, hyoung, ?_⟩
    have h := h₁.andThen (h₂.andThen (h₃.andThen (h₄.andThen (h₅.andThen h₆))))
    simpa [Readings.deletedOf, List.append_assoc] using h
  dsimp only
  split
  · exact (reaches_rotateOne (newWarmPod gpuType) ‹_› hkept).bind hrest
  · have hcurrent : rd.currentImage = "" := by simpa using ‹¬ rd.currentImage ≠ ""›
    have hnone : ∀ p ∈ (rd.liveOf cfg (w.warmPods (some gpuType) none)).take target,
        ¬ rd.isOutdated p = true := fun p _ => by simp [Readings.isOutdated_of_unknown hcurrent]
    refine Achieves.bind (achieves_pure ⟨(List.eraseP_of_forall_not hnone).symm, ?_⟩) hrest
    rw [List.find?_eq_none.mpr hnone]
    exact .refl w₃

end Passes

end CiInfra.GpuDev
