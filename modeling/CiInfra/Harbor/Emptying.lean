import CiInfra.Harbor.Api
import Mathlib.Data.List.Perm.Subperm

/-!
# Emptying a project

The repositories of a project are deleted page by page, and what is left moves up on the pages that
were read. So the second hundred of the repositories is skipped, and a project with more than a
hundred is not deleted.
-/

namespace CiInfra.Harbor

open Interaction Fallible

/-! ### Names in paths -/

theorem percentDecode_cons {c : Char} (h : c ≠ '%') (cs : List Char) :
    percentDecode (c :: cs) = c :: percentDecode cs := by
  rw [percentDecode.eq_2]
  exact fun _ _ _ hc => absurd hc h

/-- What is encoded is decoded in two steps. -/
theorem percentDecode_percentDecode {cs : List Char} (h : '%' ∉ cs) :
    percentDecode (percentDecode
      (cs.flatMap fun c => if c = '/' then ['%', '2', '5', '2', 'F'] else [c])) = cs := by
  have hpercent (rest : List Char) :
      percentDecode ('%' :: '2' :: '5' :: rest) = '%' :: percentDecode rest := rfl
  have hslash (rest : List Char) :
      percentDecode ('%' :: '2' :: 'F' :: rest) = '/' :: percentDecode rest := rfl
  have hrest (rest : List Char) :
      percentDecode ('2' :: 'F' :: rest) = '2' :: 'F' :: percentDecode rest := by
    rw [percentDecode_cons (by decide), percentDecode_cons (by decide)]
  induction cs with
  | nil => rfl
  | cons c cs ih =>
    obtain ⟨hc, hcs⟩ := not_or.mp (List.mem_cons.not.mp h)
    rw [List.flatMap_cons]
    by_cases hc' : c = '/'
    · subst hc'
      simp only [if_true, List.cons_append, List.nil_append]
      rw [hpercent, hrest, hslash, ih hcs]
    · rw [if_neg hc', List.singleton_append, percentDecode_cons (Ne.symm hc),
        percentDecode_cons (Ne.symm hc), ih hcs]

theorem IsRepositoryPath.percent_not_mem {path : String} (h : IsRepositoryPath path) :
    '%' ∉ path.toList := by
  intro hmem
  rcases h.2 _ hmem with hc | hc | hc
  · exact absurd hc (by decide)
  · exact absurd hc (by decide)
  · exact absurd hc (by decide)

theorem decodedPath_encodedPath {path : String} (h : IsRepositoryPath path) :
    decodedPath (encodedPath path) = path := by
  rw [decodedPath, encodedPath, String.toList_ofList,
    percentDecode_percentDecode h.percent_not_mem, String.ofList_toList]

/-- A repository's name begins with the project. -/
theorem repoPath_append {projectName : String} (h : '/' ∉ projectName.toList) (path : String) :
    repoPath (projectName ++ "/" ++ path) = path := by
  have hdrop : (projectName ++ "/" ++ path).toList.dropWhile (· ≠ '/') = '/' :: path.toList := by
    rw [String.toList_append, String.toList_append, List.append_assoc, List.dropWhile_append_of_pos]
    · rfl
    · intro c hc
      exact decide_eq_true fun heq => h (heq ▸ hc)
  rw [repoPath, hdrop]
  exact String.ofList_toList

/-! ### The repositories of a project -/

theorem Project.ext {p q : Project} (h : p.paths = q.paths) : p = q := by
  obtain ⟨paths, _, _⟩ := p
  obtain ⟨_, _, _⟩ := q
  obtain rfl : paths = _ := h
  rfl

/-- The project without some of its repositories. -/
def Project.deleteAll (p : Project) (paths : List String) : Project := paths.foldl Project.delete p

theorem Project.paths_deleteAll (p : Project) (paths : List String) :
    (p.deleteAll paths).paths = p.paths.filter (· ∉ paths) := by
  unfold Project.deleteAll
  induction paths generalizing p with
  | nil => simp
  | cons path paths ih =>
    rw [List.foldl_cons, ih, Project.delete, List.filter_filter]
    refine List.filter_congr fun x _ => ?_
    rw [Bool.eq_iff_iff]
    simp
    tauto

/-- The paths on a page. -/
def Project.page (p : Project) (n : ℕ) : List String :=
  (p.paths.drop ((n - 1) * pageSize)).take pageSize

/-- On the first page of a project with at most a hundred repositories are all. -/
theorem Project.page_one {p : Project} (h : p.paths.length ≤ pageSize) : p.page 1 = p.paths := by
  rw [Project.page, Nat.sub_self, Nat.zero_mul, List.drop_zero, List.take_of_length_le h]

/-- After a page some repository is left, if one comes before the page or after it. -/
theorem Project.deleteAll_page_ne_nil {p : Project} {n : ℕ} (hne : p.paths ≠ [])
    (h : 2 ≤ n ∨ pageSize < p.paths.length) : (p.deleteAll (p.page n)).paths ≠ [] := by
  intro hnil
  rw [p.paths_deleteAll, List.filter_eq_nil_iff] at hnil
  have hsub : p.paths ⊆ p.page n := fun path hpath => by simpa using hnil path hpath
  have hle := (List.subperm_of_subset p.nodup hsub).length_le
  have hpos := List.length_pos_iff.mpr hne
  rw [Project.page, List.length_take, List.length_drop] at hle
  unfold pageSize at h hle
  omega

/-! ### Deleting pages -/

variable {registry : Registry} {s : State registry} {p : Project}

theorem result_send (op : Op) (s : State registry) :
    (send op).result serve s = serve op s := rfl

/-- A repository that is asked for by its name is deleted, if it is there. -/
theorem result_deleteRepository (hproject : s.project = some p) {path : String}
    (hpath : IsRepositoryPath path) :
    (deleteRepository registry.projectName (registry.projectName ++ "/" ++ path)).result serve s =
      (.ok (), { s with project := some (p.delete path) }) := by
  suffices hserve : ∃ resp, serve (.deleteRepository registry.projectName (encodedPath path)) s =
      (.ok resp, { s with project := some (p.delete path) }) by
    obtain ⟨resp, hserve⟩ := hserve
    rw [deleteRepository, repoPath_append registry.noSlash,
      result_bind ((result_send _ s).trans hserve)]
    rfl
  rw [serve, hproject]
  simp only [decodedPath_encodedPath hpath, true_and]
  split
  · exact ⟨_, rfl⟩
  · rename_i hmem
    have hsame : p.delete path = p := by
      refine Project.ext (List.filter_eq_self.mpr fun path' hpath' => decide_eq_true ?_)
      exact fun heq => hmem (heq ▸ hpath')
    rw [hsame, ← hproject]
    exact ⟨_, rfl⟩

/-- The repositories that are asked for by their names are deleted. -/
theorem result_forM_deleteRepository (hproject : s.project = some p) {paths : List String}
    (hpaths : ∀ path ∈ paths, IsRepositoryPath path) :
    ((paths.map fun path => registry.projectName ++ "/" ++ path).forM
        (deleteRepository registry.projectName)).result serve s =
      (.ok (), { s with project := some (p.deleteAll paths) }) := by
  induction paths generalizing s p with
  | nil =>
    rw [Project.deleteAll, List.foldl_nil, ← hproject]
    rfl
  | cons path paths ih =>
    obtain ⟨hpath, hpaths⟩ := List.forall_mem_cons.mp hpaths
    rw [List.map_cons, List.forM_eq_forM, List.forM_cons,
      result_bind (result_deleteRepository hproject hpath)]
    exact ih rfl hpaths

/-- A page is read, and the repositories on it are deleted. -/
theorem result_deleteRepositories_succ (hproject : s.project = some p) (fuel n : ℕ) :
    (deleteRepositories registry.projectName (fuel + 1) n).result serve s =
      if p.page n = [] then (.ok (), s)
      else (deleteRepositories registry.projectName fuel (n + 1)).result serve
        { s with project := some (p.deleteAll (p.page n)) } := by
  have hlist : (send (.listRepositories registry.projectName n pageSize)).result serve s =
      (.ok ⟨200, (p.page n).map fun path => registry.projectName ++ "/" ++ path⟩, s) := by
    rw [result_send, serve, hproject]
    simp [Project.page]
  have hpaths : ∀ path ∈ p.page n, IsRepositoryPath path :=
    fun path h => p.arePaths path (List.mem_of_mem_drop (List.mem_of_mem_take h))
  rw [deleteRepositories, result_bind hlist]
  simp only [List.map_eq_nil_iff, ne_eq, not_true_eq_false, false_or]
  split
  · rfl
  · rw [result_bind (result_forM_deleteRepository hproject hpaths)]

/-- Where some repository is left after every page, some is left. -/
theorem deleteRepositories_leaves {fuel n : ℕ} (hproject : s.project = some p)
    (hne : p.paths ≠ []) (hn : 1 ≤ n) (h : 2 ≤ n ∨ pageSize < p.paths.length)
    {s' : State registry}
    (hresult : (deleteRepositories registry.projectName fuel n).result serve s = (.ok (), s')) :
    ∃ p', s'.project = some p' ∧ p'.paths ≠ [] := by
  induction fuel generalizing s p n with
  | zero => cases hresult
  | succ fuel ih =>
    rw [result_deleteRepositories_succ hproject] at hresult
    split at hresult
    · cases hresult
      exact ⟨p, hproject, hne⟩
    · exact ih rfl (p.deleteAll_page_ne_nil hne h) (by omega) (Or.inl (by omega)) hresult

/-- At most a hundred repositories are on one page, and after it none is left. -/
theorem result_deleteRepositories_of_le (hproject : s.project = some p)
    (hle : p.paths.length ≤ pageSize) {fuel : ℕ} (hfuel : 2 ≤ fuel) :
    ∃ p', p'.paths = [] ∧ (deleteRepositories registry.projectName fuel 1).result serve s =
      (.ok (), { s with project := some p' }) := by
  obtain ⟨fuel, rfl⟩ := Nat.exists_eq_add_of_le' hfuel
  rw [result_deleteRepositories_succ hproject, Project.page_one hle]
  split
  · rename_i hnil
    refine ⟨p, hnil, ?_⟩
    rw [← hproject]
  · have hnil : (p.deleteAll p.paths).paths = [] := by
      rw [Project.paths_deleteAll, List.filter_eq_nil_iff]
      simp
    refine ⟨p.deleteAll p.paths, hnil, ?_⟩
    rw [result_deleteRepositories_succ rfl, if_pos]
    rw [Project.page, hnil, List.drop_nil, List.take_nil]

/-- A project with at most a hundred repositories is deleted. -/
theorem result_deleteProject_of_le (hproject : s.project = some p)
    (hle : p.paths.length ≤ pageSize) {fuel : ℕ} (hfuel : 2 ≤ fuel) :
    (deleteProject fuel registry.projectName).result serve s =
      (.ok true, { s with project := none }) := by
  obtain ⟨p', hnil, hresult⟩ := result_deleteRepositories_of_le hproject hle hfuel
  have hdelete : (send (.deleteProject registry.projectName)).result serve
      { s with project := some p' } = (.ok ⟨200, ()⟩, { s with project := none }) := by
    rw [result_send, serve]
    simp [hnil]
  rw [deleteProject, result_bind hresult, result_bind hdelete]
  rfl

/-- A project with more is not. -/
theorem result_deleteProject_of_lt (hproject : s.project = some p)
    (hlt : pageSize < p.paths.length) {fuel : ℕ} {s' : State registry} :
    (deleteProject fuel registry.projectName).result serve s ≠ (.ok true, s') := by
  intro hresult
  have hne : p.paths ≠ [] := by
    rintro hnil
    rw [hnil] at hlt
    exact absurd hlt (Nat.not_lt_zero _)
  cases hpages : (deleteRepositories registry.projectName fuel 1).result serve s with
  | mk r s₁ =>
    cases r with
    | error e =>
      rw [deleteProject, result_bind_error hpages] at hresult
      cases hresult
    | ok u =>
      obtain ⟨p', hproject', hne'⟩ :=
        deleteRepositories_leaves hproject hne (Nat.le_refl 1) (Or.inr hlt) hpages
      have hdelete : (send (.deleteProject registry.projectName)).result serve s₁ =
          (.ok ⟨412, ()⟩, s₁) := by
        rw [result_send, serve, hproject']
        simp [hne']
      rw [deleteProject, result_bind hpages, result_bind hdelete] at hresult
      cases hresult

/-- If all calls go through, a project is emptied and deleted, exactly if it has at most a hundred
repositories. -/
theorem deleteProject_empties_iff (s : State registry) (p : Project) :
    (∃ enough, ∀ fuel ≥ enough,
      (deleteProject fuel registry.projectName).result serve { s with project := some p } =
        (.ok true, { s with project := none })) ↔
      p.paths.length ≤ pageSize := by
  constructor
  · rintro ⟨enough, hresult⟩
    by_contra hlt
    exact result_deleteProject_of_lt rfl (Nat.lt_of_not_le hlt) (hresult enough (Nat.le_refl _))
  · exact fun hle => ⟨2, fun fuel hfuel => result_deleteProject_of_le rfl hle hfuel⟩

/-- The registry of Docker Hub. -/
def dockerhub : Registry :=
  ⟨"dockerhub", "https://hub.docker.com", "docker-hub", "dockerhub-cache", by decide⟩

/-- A project with the repositories `a`, `aa`, `aaa` and so on. -/
def projectOf (count : ℕ) : Project where
  paths := (List.range count).map fun n => String.ofList (List.replicate (n + 1) 'a')
  nodup := by
    refine List.nodup_range.map fun m n h => ?_
    have hlength := congrArg (fun path : String => path.toList.length) h
    simpa using hlength
  arePaths := by
    intro path hpath
    obtain ⟨n, -, rfl⟩ := List.mem_map.mp hpath
    rw [IsRepositoryPath, String.toList_ofList]
    refine ⟨⟨'a', List.replicate n 'a', List.replicate_succ, Or.inl (by decide)⟩, fun c hc => ?_⟩
    obtain rfl := List.eq_of_mem_replicate hc
    exact Or.inl (by decide)

theorem noOthers : ∀ info ∈ ([] : List RegistryInfo), info.name ≠ dockerhub.name := by simp

/-- Docker Hub's cache, with its endpoint and so many repositories. -/
def cacheOf (count : ℕ) : State dockerhub :=
  ⟨some ⟨1, none⟩, some (projectOf count), 2, [], noOthers⟩

/-- A project with a hundred and one repositories is not deleted. -/
theorem cacheOf_not_emptied : ¬ ∃ enough, ∀ fuel ≥ enough,
    (deleteProject fuel dockerhub.projectName).result serve (cacheOf 101) =
      (.ok true, { cacheOf 101 with project := none }) := by
  rintro ⟨enough, hresult⟩
  have hlt : pageSize < (projectOf 101).paths.length := by simp [projectOf, pageSize]
  exact result_deleteProject_of_lt rfl hlt (hresult enough (Nat.le_refl _))

end CiInfra.Harbor
