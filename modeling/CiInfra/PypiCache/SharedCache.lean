import CiInfra.PypiCache.PrebuiltCache
import Mathlib.Data.List.Induction
import Mathlib.Logic.Function.Basic

/-!
# Collectors that share a bucket

Each cluster has a collector. All of them read and write the cache of releases that are already
built, without a lock, and can be stopped at any point. A collector can therefore put back a cache
that misses what others have found meanwhile. What a collector takes for prebuilt has nevertheless
always been found to be prebuilt for its own matrix, so nothing is missing among the wants but what
needs no build.
-/

namespace WantsCollector

open TextLines

/-- A collector: what it collects for, and the name under which it publishes. -/
structure Collector where
  clusterId : Text
  target : Target

/-- The files of the bucket. The wants are stored under the names of clusters. -/
structure Bucket where
  prebuiltCache : Option Text
  needbuild : Option Text
  wants : Text → Option Text

/-- How far a cycle has come, and what the collector holds there. -/
inductive Phase
  | idle
  | scanned (packages : Finset Package)
  | cached (packages : Finset Package) (prebuilt : Finset Text)
  | loaded (packages : Finset Package) (prebuilt needbuild : Finset Text)
  | filtered (wants prebuilt : Finset Text)
  | published (prebuilt : Finset Text)

/-- What the collector takes for prebuilt. -/
def Phase.prebuilt : Phase → Finset Text
  | .idle | .scanned _ => ∅
  | .cached _ prebuilt | .loaded _ prebuilt _ | .filtered _ prebuilt | .published prebuilt =>
    prebuilt

/-- The next thing that a collector does. Its requests are answered as the index answers in this
cycle. A collector that is stopped, or that fails, begins again. -/
inductive Move (ε : Type)
  | scan (logDir : List LogFile)
  | getCache
  | getNeedbuild
  | check (httpGet : Text → Except ε (ℕ × List Entry))
  | putWants
  | putCache
  | stop

variable {ι ε : Type}

/-- One step of a cycle. -/
def act (c : Collector) (bucket : Bucket) : Phase → Move ε → Bucket × Phase
  | .idle, .scan logDir =>
    (bucket, if scanLogs logDir = ∅ then .idle else .scanned (scanLogs logDir))
  | .scanned packages, .getCache =>
    (bucket, .cached packages (parsePrebuiltCache bucket.prebuiltCache c.target.header))
  | .cached packages prebuilt, .getNeedbuild =>
    (bucket, .loaded packages prebuilt (parseNeedbuild bucket.needbuild))
  | .loaded packages prebuilt needbuild, .check httpGet =>
    match filterPackages c.target.combos c.target.targetManylinux httpGet needbuild packages
      prebuilt with
    | .ok (wants, prebuilt) => (bucket, .filtered wants prebuilt)
    | .error _ => (bucket, .idle)
  | .filtered wants prebuilt, .putWants =>
    ({ bucket with wants := Function.update bucket.wants c.clusterId (some (formatWants wants)) },
      .published prebuilt)
  | .published prebuilt, .putCache =>
    ({ bucket with prebuiltCache := some (formatPrebuiltCache c.target.header prebuilt) }, .idle)
  | _, .stop => (bucket, .idle)
  | phase, _ => (bucket, phase)

/-- What a step can do to the bucket and to the phase. -/
inductive Effect (c : Collector) (bucket : Bucket) (phase : Phase) :
    Move ε → Bucket × Phase → Prop
  | nothing (m : Move ε) : Effect c bucket phase m (bucket, phase)
  | ended (m : Move ε) : Effect c bucket phase m (bucket, .idle)
  | scanned (logDir : List LogFile) :
    Effect c bucket phase (.scan logDir) (bucket, .scanned (scanLogs logDir))
  | cached (packages : Finset Package) (h : phase = .scanned packages) :
    Effect c bucket phase .getCache
      (bucket, .cached packages (parsePrebuiltCache bucket.prebuiltCache c.target.header))
  | loaded (packages : Finset Package) (prebuilt : Finset Text)
      (h : phase = .cached packages prebuilt) :
    Effect c bucket phase .getNeedbuild
      (bucket, .loaded packages prebuilt (parseNeedbuild bucket.needbuild))
  | filtered (packages : Finset Package) (prebuilt needbuild wants prebuilt' : Finset Text)
      (httpGet : Text → Except ε (ℕ × List Entry)) (h : phase = .loaded packages prebuilt needbuild)
      (hfilter : filterPackages c.target.combos c.target.targetManylinux httpGet needbuild packages
        prebuilt = .ok (wants, prebuilt')) :
    Effect c bucket phase (.check httpGet) (bucket, .filtered wants prebuilt')
  | published (wants prebuilt : Finset Text) (h : phase = .filtered wants prebuilt) :
    Effect c bucket phase .putWants
      ({ bucket with
          wants := Function.update bucket.wants c.clusterId (some (formatWants wants)) },
        .published prebuilt)
  | stored (prebuilt : Finset Text) (h : phase = .published prebuilt) :
    Effect c bucket phase .putCache
      ({ bucket with prebuiltCache := some (formatPrebuiltCache c.target.header prebuilt) }, .idle)

theorem effect_act (c : Collector) (bucket : Bucket) (phase : Phase) (m : Move ε) :
    Effect c bucket phase m (act c bucket phase m) := by
  unfold act
  split
  · split
    · exact .nothing _
    · exact .scanned _
  · exact .cached _ rfl
  · exact .loaded _ _ rfl
  · split
    · exact .filtered _ _ _ _ _ _ rfl ‹_›
    · exact .ended _
  · exact .published _ _ rfl
  · exact .stored _ rfl
  · exact .ended _
  · exact .nothing _

/-! ### Runs -/

/-- The bucket, and where each collector stands. -/
structure World (ι : Type) where
  bucket : Bucket
  phase : ι → Phase

/-- A collector makes a step, or somebody edits the list of what is always built. -/
inductive Event (ι ε : Type)
  | collector (i : ι) (m : Move ε)
  | needbuild (content : Option Text)

variable [DecidableEq ι] (collectors : ι → Collector)

def step (w : World ι) : Event ι ε → World ι
  | .collector i m =>
    ⟨(act (collectors i) w.bucket (w.phase i) m).1,
      Function.update w.phase i (act (collectors i) w.bucket (w.phase i) m).2⟩
  | .needbuild content => { w with bucket := { w.bucket with needbuild := content } }

/-- What a run of events makes of a bucket, with collectors that begin. -/
def worldAfter (bucket : Bucket) (run : List (Event ι ε)) : World ι :=
  run.foldl (step collectors) ⟨bucket, fun _ => .idle⟩

/-- In the run, a collector with the target has asked the index about a release, and needs no build
of it. -/
def FoundPrebuilt (bucket : Bucket) (run : List (Event ι ε)) (t : Target) (e : Text) : Prop :=
  ∃ before j httpGet after packages prebuilt needbuild, ∃ p ∈ packages,
    run = before ++ .collector j (.check httpGet) :: after ∧ (collectors j).target = t ∧
    (worldAfter collectors bucket before).phase j = .loaded packages prebuilt needbuild ∧
    entryOf p = e ∧ checkPypi p.1 p.2 t.combos t.targetManylinux httpGet = .ok false

/-- The cache had the entry for the target when the run began, or the run has found it. -/
def Known (bucket : Bucket) (run : List (Event ι ε)) (t : Target) (e : Text) : Prop :=
  e ∈ parsePrebuiltCache bucket.prebuiltCache t.header ∨ FoundPrebuilt collectors bucket run t e

/-- The releases are those of logs that the collector has scanned in the run. -/
def Scanned (run : List (Event ι ε)) (i : ι) (packages : Finset Package) : Prop :=
  ∃ logDir, .collector i (.scan logDir) ∈ run ∧ packages = scanLogs logDir

/-- The file lists what a cycle of a collector of the cluster wants, and of the releases that it has
scanned misses only such that are known to be prebuilt. -/
def Published (bucket : Bucket) (run : List (Event ι ε)) (clusterId content : Text) : Prop :=
  ∃ before j httpGet after packages prebuilt needbuild,
    run = before ++ .collector j (.check httpGet) :: after ∧
    (collectors j).clusterId = clusterId ∧
    (worldAfter collectors bucket before).phase j = .loaded packages prebuilt needbuild ∧
    Scanned before j packages ∧
    (∀ e, e ∈ splitLines content ↔ ∃ p ∈ packages, entryOf p = e ∧
      Wanted (collectors j).target.combos (collectors j).target.targetManylinux httpGet needbuild
        prebuilt p) ∧
    ∀ p ∈ packages, entryOf p ∈ splitLines content ∨
      Known collectors bucket run (collectors j).target (entryOf p)

/-! ### What every run keeps -/

section Runs

variable {collectors} {bucket : Bucket} {run : List (Event ι ε)} {event : Event ι ε} {i : ι}
  {t : Target} {e : Text} {packages : Finset Package} {prebuilt : Finset Text}

theorem worldAfter_concat (collectors : ι → Collector) (bucket : Bucket) (run : List (Event ι ε))
    (event : Event ι ε) : worldAfter collectors bucket (run ++ [event]) =
      step collectors (worldAfter collectors bucket run) event := by
  rw [worldAfter, List.foldl_append, List.foldl_cons, List.foldl_nil, worldAfter]

omit [DecidableEq ι] in
theorem Scanned.concat (h : Scanned run i packages) (event : Event ι ε) :
    Scanned (run ++ [event]) i packages := by
  obtain ⟨logDir, hmem, rfl⟩ := h
  exact ⟨logDir, List.mem_append_left _ hmem, rfl⟩

theorem Known.concat (h : Known collectors bucket run t e) (event : Event ι ε) :
    Known collectors bucket (run ++ [event]) t e := by
  apply h.imp_right
  rintro ⟨before, j, httpGet, after, packages, prebuilt, needbuild, p, hp, rfl, hrest⟩
  exact ⟨before, j, httpGet, after ++ [event], packages, prebuilt, needbuild, p, hp, by simp, hrest⟩

theorem Published.concat {clusterId content : Text}
    (h : Published collectors bucket run clusterId content) (event : Event ι ε) :
    Published collectors bucket (run ++ [event]) clusterId content := by
  obtain ⟨before, j, httpGet, after, packages, prebuilt, needbuild, rfl, hcluster, hphase, hscanned,
    hlines, hall⟩ := h
  exact ⟨before, j, httpGet, after ++ [event], packages, prebuilt, needbuild, by simp, hcluster,
    hphase, hscanned, hlines, fun p hp => (hall p hp).imp_right fun h => h.concat event⟩

/-- Plain lines, each of which is known to be prebuilt for the collector's target. -/
def AllKnown (collectors : ι → Collector) (bucket : Bucket) (run : List (Event ι ε)) (i : ι)
    (prebuilt : Finset Text) : Prop :=
  ∀ e ∈ prebuilt, IsStripped e ∧ Known collectors bucket run (collectors i).target e

theorem AllKnown.concat (h : AllKnown collectors bucket run i prebuilt) (event : Event ι ε) :
    AllKnown collectors bucket (run ++ [event]) i prebuilt :=
  fun e he => (h e he).imp_right fun h => h.concat event

/-- What a collector holds has grounds in the run. -/
def Grounded (collectors : ι → Collector) (bucket : Bucket) (run : List (Event ι ε)) (i : ι) :
    Phase → Prop
  | .idle => True
  | .scanned packages => Scanned run i packages
  | .cached packages prebuilt | .loaded packages prebuilt _ =>
    Scanned run i packages ∧ AllKnown collectors bucket run i prebuilt
  | .filtered wants prebuilt =>
    Published collectors bucket run (collectors i).clusterId (formatWants wants) ∧
      AllKnown collectors bucket run i prebuilt
  | .published prebuilt => AllKnown collectors bucket run i prebuilt

theorem Grounded.concat {phase : Phase} (h : Grounded collectors bucket run i phase)
    (event : Event ι ε) : Grounded collectors bucket (run ++ [event]) i phase := by
  cases phase with
  | idle => trivial
  | scanned packages => exact Scanned.concat h event
  | cached | loaded | filtered => exact ⟨h.1.concat event, h.2.concat event⟩
  | published prebuilt => exact AllKnown.concat h event

/-- What is in the bucket has grounds in the run. -/
structure BucketGrounded (collectors : ι → Collector) (bucket : Bucket) (run : List (Event ι ε))
    (now : Bucket) : Prop where
  cache : ∀ t : Target, ∀ e ∈ parsePrebuiltCache now.prebuiltCache t.header,
    Known collectors bucket run t e
  wants : ∀ clusterId content, now.wants clusterId = some content →
    bucket.wants clusterId = some content ∨ Published collectors bucket run clusterId content

theorem BucketGrounded.concat {now : Bucket} (h : BucketGrounded collectors bucket run now)
    (event : Event ι ε) : BucketGrounded collectors bucket (run ++ [event]) now where
  cache t e he := (h.cache t e he).concat event
  wants clusterId content hwants := (h.wants clusterId content hwants).imp_right
    fun h => h.concat event

/-- What a cycle wants, and what it takes for prebuilt. -/
theorem grounded_of_filter {needbuild wants prebuilt' : Finset Text}
    {httpGet : Text → Except ε (ℕ × List Entry)}
    (hphase : (worldAfter collectors bucket run).phase i = .loaded packages prebuilt needbuild)
    (hgrounded : Grounded collectors bucket run i (.loaded packages prebuilt needbuild))
    (hfilter : filterPackages (collectors i).target.combos (collectors i).target.targetManylinux
      httpGet needbuild packages prebuilt = .ok (wants, prebuilt')) :
    Grounded collectors bucket (run ++ [.collector i (.check httpGet)]) i
      (.filtered wants prebuilt') := by
  obtain ⟨hscanned, hknown⟩ := hgrounded
  have hrelease : ∀ p ∈ packages, IsRelease p := by
    obtain ⟨logDir, -, rfl⟩ := hscanned
    exact fun p => isRelease_of_mem_scanLogs
  have hfiltered := filtered_filterPackages hrelease hfilter
  have hstripped := hfiltered.isStripped (fun p hp => hrelease p (mem_sortedPackages.mp hp))
    fun e he => (hknown e he).1
  have hknown' :
      AllKnown collectors bucket (run ++ [.collector i (.check httpGet)]) i prebuilt' := by
    intro e he
    refine ⟨hstripped e he, ?_⟩
    rcases (hfiltered.mem_prebuilt e).mp he with he | ⟨p, hp, hentry, -, hcheck⟩
    · exact (hknown e he).2.concat _
    · exact Or.inr ⟨run, i, httpGet, [], packages, prebuilt, needbuild, p,
        mem_sortedPackages.mp hp, rfl, rfl, hphase, hentry, hcheck⟩
  have hwants : ∀ e, e ∈ wants ↔ ∃ p ∈ packages, entryOf p = e ∧
      Wanted (collectors i).target.combos (collectors i).target.targetManylinux httpGet needbuild
        prebuilt p := by
    intro e
    have hmem := hfiltered.mem_wants e
    simpa only [mem_sortedPackages, Finset.notMem_empty, false_or] using hmem
  have hlines : ∀ e, e ∈ splitLines (formatWants wants) ↔ e ∈ wants := by
    refine fun e => mem_splitLines_formatWants fun e he => ?_
    obtain ⟨p, hp, rfl, -⟩ := (hwants e).mp he
    exact isStripped_entryOf (hrelease p hp)
  refine ⟨⟨run, i, httpGet, [], packages, prebuilt, needbuild, rfl, rfl, hphase, hscanned,
    fun e => (hlines e).trans (hwants e), fun p hp => ?_⟩, hknown'⟩
  rcases hfiltered.settled p (mem_sortedPackages.mpr hp) with hin | hin
  · exact Or.inl ((hlines _).mpr hin)
  · exact Or.inr (hknown' _ hin).2

/-- A step of a collector keeps the grounds. -/
theorem grounded_of_effect {m : Move ε} {result : Bucket × Phase}
    (hphase : Grounded collectors bucket run i ((worldAfter collectors bucket run).phase i))
    (hbucket : BucketGrounded collectors bucket run (worldAfter collectors bucket run).bucket)
    (h : Effect (collectors i) (worldAfter collectors bucket run).bucket
      ((worldAfter collectors bucket run).phase i) m result) :
    Grounded collectors bucket (run ++ [.collector i m]) i result.2 ∧
      BucketGrounded collectors bucket (run ++ [.collector i m]) result.1 := by
  have hkept := hbucket.concat (.collector i m)
  cases h with
  | nothing => exact ⟨hphase.concat _, hkept⟩
  | ended => exact ⟨trivial, hkept⟩
  | scanned logDir =>
    exact ⟨⟨logDir, by simp, rfl⟩, hkept⟩
  | cached packages heq =>
    rw [heq] at hphase
    refine ⟨⟨Scanned.concat hphase _, fun e he => ?_⟩, hkept⟩
    exact ⟨isStripped_of_mem_parse he, (hbucket.cache _ e he).concat _⟩
  | loaded packages prebuilt heq =>
    rw [heq] at hphase
    exact ⟨⟨hphase.1.concat _, hphase.2.concat _⟩, hkept⟩
  | filtered packages prebuilt needbuild wants prebuilt' httpGet heq hfilter =>
    have hloaded := hphase
    rw [heq] at hloaded
    exact ⟨grounded_of_filter heq hloaded hfilter, hkept⟩
  | published wants prebuilt heq =>
    rw [heq] at hphase
    obtain ⟨hpublished, hknown⟩ := hphase
    refine ⟨hknown.concat _, ⟨hkept.cache, fun clusterId content hcontent => ?_⟩⟩
    dsimp only at hcontent
    by_cases hcluster : clusterId = (collectors i).clusterId
    · subst hcluster
      rw [Function.update_self] at hcontent
      cases hcontent
      exact Or.inr (hpublished.concat _)
    · rw [Function.update_of_ne hcluster] at hcontent
      exact hkept.wants clusterId content hcontent
  | stored prebuilt heq =>
    rw [heq] at hphase
    refine ⟨trivial, ⟨fun t e he => ?_, hkept.wants⟩⟩
    have hstripped : ∀ e ∈ prebuilt, IsStripped e := fun e he => (hphase e he).1
    by_cases hheader : (collectors i).target.header = t.header
    · obtain rfl := Target.header_inj hheader
      rw [parse_format_of_eq (Target.isStripped_header _) hstripped] at he
      exact (hphase e he).2.concat _
    · rw [parse_format_of_ne (Target.isStripped_header _) hstripped hheader] at he
      exact absurd he (Finset.notMem_empty e)

/-- After every run, what collectors hold and what is in the bucket has grounds in it. -/
theorem grounded_worldAfter (collectors : ι → Collector) (bucket : Bucket)
    (run : List (Event ι ε)) :
    (∀ i, Grounded collectors bucket run i ((worldAfter collectors bucket run).phase i)) ∧
      BucketGrounded collectors bucket run (worldAfter collectors bucket run).bucket := by
  induction run using List.reverseRecOn with
  | nil =>
    exact ⟨fun _ => trivial, ⟨fun _ _ => Or.inl, fun _ _ => Or.inl⟩⟩
  | append_singleton run event ih =>
    obtain ⟨hphases, hbucket⟩ := ih
    rw [worldAfter_concat]
    cases event with
    | collector i m =>
      obtain ⟨hphase, hbucket'⟩ := grounded_of_effect (hphases i) hbucket
        (effect_act (collectors i) _ _ m)
      refine ⟨fun j => ?_, hbucket'⟩
      by_cases hj : j = i
      · subst hj
        simpa only [step, Function.update_self] using hphase
      · simpa only [step, Function.update_of_ne hj] using (hphases j).concat _
    | needbuild content =>
      exact ⟨fun j => (hphases j).concat _,
        ⟨(hbucket.concat _).cache, (hbucket.concat _).wants⟩⟩

end Runs

/-- Whatever a collector takes for prebuilt, at any point of any run, is known to be prebuilt for
its own matrix: by the cache as the run found it, or by a check in the run. -/
theorem known_of_mem_prebuilt (bucket : Bucket) (run : List (Event ι ε)) (i : ι) :
    ∀ e ∈ ((worldAfter collectors bucket run).phase i).prebuilt,
      Known collectors bucket run (collectors i).target e := by
  intro e he
  have hgrounded := (grounded_worldAfter collectors bucket run).1 i
  generalize (worldAfter collectors bucket run).phase i = phase at hgrounded he
  cases phase with
  | idle | scanned => exact absurd he (Finset.notMem_empty e)
  | cached | loaded | filtered => exact (hgrounded.2 e he).2
  | published prebuilt => exact (hgrounded e he).2

/-- A file of wants that a run leaves is as it found it, or lists what some cycle wants, and misses
none of the releases of that cycle but such that need no build. -/
theorem published_of_wants (bucket : Bucket) (run : List (Event ι ε)) (clusterId content : Text)
    (h : (worldAfter collectors bucket run).bucket.wants clusterId = some content) :
    bucket.wants clusterId = some content ∨
      Published collectors bucket run clusterId content :=
  (grounded_worldAfter collectors bucket run).2.wants clusterId content h

/-! ### One cycle -/

def eastern : Unit → Collector := fun _ => ⟨"east".toList, target310⟩

def emptyBucket : Bucket := ⟨none, none, fun _ => none⟩

/-- A cycle up to the upload of the wants, about a release that the index does not know. -/
def cycle : List (Event Unit Empty) :=
  [.scan downloadLog, .getCache, .getNeedbuild, .check fun _ => .ok (404, []), .putWants].map
    (.collector ())

theorem worldAfter_cycle :
    worldAfter eastern emptyBucket cycle =
      ⟨⟨none, none, Function.update emptyBucket.wants "east".toList (some [])⟩,
        fun _ => .published {entryOf foo}⟩ := by
  have hstep {bucket bucket' : Bucket} {phase : Phase} {m : Move Empty} (phase' : Phase)
      (h : act (eastern ()) bucket phase m = (bucket', phase')) :
      step eastern ⟨bucket, fun _ => phase⟩ (.collector () m) = ⟨bucket', fun _ => phase'⟩ := by
    rw [step, h]
    exact congrArg (World.mk bucket') (Function.update_eq_const_of_subsingleton () phase' _)
  have hscan : act (eastern ()) emptyBucket .idle (.scan downloadLog : Move Empty) =
      (emptyBucket, .scanned (scanLogs downloadLog)) := by
    rw [act, scanLogs_downloadLog, if_neg (Finset.singleton_ne_empty _)]
  have hcheck : act (eastern ()) emptyBucket (.loaded (scanLogs downloadLog) ∅ ∅)
      (.check fun _ => .ok (404, []) : Move Empty) =
      (emptyBucket, .filtered ∅ {entryOf foo}) := by
    have hfilter := filterPackages_downloadLog target310.combos target310.targetManylinux ∅
      (Finset.notMem_empty _)
    have htarget : (eastern ()).target = target310 := rfl
    rw [act, htarget, hfilter]
    rfl
  simp only [worldAfter, cycle, List.map_cons, List.map_nil, List.foldl_cons, List.foldl_nil]
  rw [hstep _ hscan, hstep (.cached (scanLogs downloadLog) ∅) rfl,
    hstep (.loaded (scanLogs downloadLog) ∅ ∅) rfl, hstep _ hcheck,
    hstep (.published {entryOf foo}) rfl]
  rfl

theorem known_of_mem_prebuilt_cycle :
    Known eastern emptyBucket cycle target310 (entryOf foo) := by
  have hknown := known_of_mem_prebuilt eastern emptyBucket cycle ()
  rw [worldAfter_cycle] at hknown
  exact hknown _ (Finset.mem_singleton_self _)

theorem published_of_wants_cycle :
    Published eastern emptyBucket cycle "east".toList [] := by
  have hwants : (worldAfter eastern emptyBucket cycle).bucket.wants "east".toList = some [] := by
    rw [worldAfter_cycle]
    exact Function.update_self "east".toList (some []) emptyBucket.wants
  have hpublished := published_of_wants eastern emptyBucket cycle "east".toList [] hwants
  exact hpublished.resolve_left (by simp [emptyBucket])

end WantsCollector
