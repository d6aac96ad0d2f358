import CiInfra.Harbor.Emptying
import CiInfra.Lib.Fallible

/-!
# The credential of an endpoint

An endpoint that has no credential is created again with the one that is asked for. One that has
another keeps it, since only the presence of a credential is looked at, and an endpoint that is not
seen because the lookup fails counts as created when it conflicts.
-/

namespace CiInfra.Harbor

open Interaction Program Fallible

variable {registry : Registry} {c : Credential} {s s' : State registry}
  {A : Served Op Answer (State registry) → Prop}

/-- The endpoint exists with exactly this credential. -/
def Reaches (c : Credential) (s : State registry) : Prop :=
  ∃ e, s.endpoint = some e ∧ e.credential = some c

/-- The endpoint exists without a credential. -/
def WithoutCredential (s : State registry) : Prop :=
  ∃ e, s.endpoint = some e ∧ endpointHasCredentials (e.info registry) = false

/-- The project has at most a hundred repositories, if it exists. -/
def Small (s : State registry) : Prop := ∀ p, s.project = some p → p.paths.length ≤ pageSize

/-- If the endpoint is reported, it has the credential, and if a failure is reported, a call without
failures reaches that. -/
def Converges (A : Served Op Answer (State registry) → Prop) (c : Credential)
    (s : State registry) : Prop :=
  ∀ fuel, (ensureRegistryEndpoint fuel registry (some c)).run.Leaves Serves A s fun r s' =>
    (r = .ok true → Reaches c s') ∧
      (r = .ok false → ∃ enough, ∀ fuel ≥ enough, ∃ s'',
        (ensureRegistryEndpoint fuel registry (some c)).result serve s' = (.ok true, s'') ∧
          Reaches c s'')

/-- A lookup of the endpoint is answered. -/
def LookupAnswered : Served Op Answer (State registry) → Prop
  | ⟨.listRegistries _, .ok resp, _, _⟩ => resp.status = 200
  | _ => True

/-- From here a call without failures reaches the credential. -/
def Recoverable (c : Credential) (s : State registry) : Prop :=
  s.endpoint = none ∨ Reaches c s ∨ WithoutCredential s ∧ Small s

/-! ### Calls -/

/-- A call is answered by Harbor or it fails, and in either case what the call keeps holds. -/
theorem Serves.keeps {K : State registry → Prop} {op : Op} {answer : Answer op}
    (h : Serves op s answer s') (hs : K s) (hkeep : ∀ s, K s → K (serve op s).2) :
    (∃ s₁, K s₁ ∧ answer = (serve op s₁).1 ∧ s' = (serve op s₁).2) ∨ Failure answer ∧ K s' := by
  obtain ⟨s₁, hs₁, hanswer⟩ := h
  have hmid : K s₁ := by
    rcases hs₁ with rfl | rfl
    · exact hs
    · exact hkeep s hs
  rcases hanswer with hanswer | ⟨hfailure, rfl⟩
  · exact Or.inl ⟨s₁, hmid, Prod.mk.inj hanswer⟩
  · exact Or.inr ⟨hfailure, hmid⟩

/-- A call that changes nothing is answered by Harbor or fails. -/
theorem Serves.of_unchanged {op : Op} {answer : Answer op} (h : Serves op s answer s')
    (hserve : ∀ s : State registry, (serve op s).2 = s) :
    s' = s ∧ (answer = (serve op s).1 ∨ Failure answer) := by
  rcases h.keeps (K := fun s₁ => s₁ = s) rfl fun s₁ hs₁ => (hserve s₁).trans hs₁ with
    ⟨_, rfl, hanswer, hs'⟩ | ⟨hfailure, hs'⟩
  · exact ⟨hs'.trans (hserve _), Or.inl hanswer⟩
  · exact ⟨hs', Or.inr hfailure⟩

/-- What the listing shows under the name of the registry is its endpoint. -/
theorem find?_others_append (s : State registry) :
    (s.others ++ s.endpoint.toList.map (Endpoint.info registry)).find?
        (fun reg => reg.name = registry.name) =
      s.endpoint.map (Endpoint.info registry) := by
  have hothers : s.others.find? (fun reg => reg.name = registry.name) = none := by
    rw [List.find?_eq_none]
    exact fun info hinfo => by simpa using s.others_ne info hinfo
  rw [List.find?_append, hothers, Option.none_or]
  cases s.endpoint with
  | none => rfl
  | some e => simp [Endpoint.info]

/-- A call, of which something is returned. -/
theorem leaves_send {α : Type} {op : Op} {f : Response op.Body → α}
    {Q : Except Raised α → State registry → Prop}
    (h : ∀ answer s', Serves op s answer s' → A ⟨op, answer, s, s'⟩ → Q (answer.map f) s') :
    (do let resp ← send op; return f resp : Api α).run.Leaves Serves A s Q := by
  let Q' : Answer op → State registry → Prop := fun answer s' => Q (answer.map f) s'
  have hsend : (send op).run.Leaves Serves A s Q' := leaves_request h
  exact leaves_bind hsend (fun _ _ hQ => leaves_pure hQ) fun _ _ hQ => hQ

/-- The lookup changes nothing. It finds the endpoint, or nothing if it is not answered. -/
theorem leaves_getRegistryInfo (s : State registry) :
    (getRegistryInfo registry.name).run.Leaves Serves A s fun r s' => s' = s ∧
      ∀ existing, r = .ok existing → existing = s.endpoint.map (Endpoint.info registry) ∨
        existing = none ∧ ∃ x, A x ∧ ¬ LookupAnswered x := by
  refine leaves_send fun answer s' hserves hA => ?_
  obtain ⟨rfl, hanswer⟩ := hserves.of_unchanged fun _ => rfl
  refine ⟨rfl, fun existing hexisting => ?_⟩
  rcases hanswer with rfl | hfailure
  · left
    rw [← find?_others_append]
    cases hexisting
    rfl
  · cases answer with
    | error e => cases hexisting
    | ok resp =>
      have hstatus : resp.status ≠ 200 := by
        intro h
        exact hfailure resp rfl (by simp [h])
      cases hexisting
      exact Or.inr ⟨if_neg hstatus, _, hA, hstatus⟩

/-- A failure is not taken for success. -/
theorem Failure.map_ne {op : Op} {answer : Answer op} {f : Response op.Body → Bool}
    (h : Failure answer) (hf : ∀ resp, f resp = true → resp.status ∈ [200, 201, 404, 409]) :
    answer.map f ≠ .ok true := by
  intro hok
  cases answer with
  | error e => cases hok
  | ok resp => exact h resp rfl (hf resp (Except.ok.inj hok))

/-- The endpoint is created, or not. -/
theorem leaves_createRegistryEndpoint {payload : Payload} (hpayload : payload.credential = some c)
    (hs : s.endpoint = none ∨ Reaches c s) :
    (createRegistryEndpoint payload).run.Leaves Serves A s fun r s' =>
      (r = .ok true → Reaches c s') ∧ (s'.endpoint = none ∨ Reaches c s') := by
  refine leaves_send fun answer s' hserves _ => ?_
  have hcreated (s : State registry) (hs : s.endpoint = none ∨ Reaches c s) :
      Reaches c (serve (.createRegistry payload) s).2 := by
    rcases hs with hnone | ⟨e, he, hcredential⟩
    · rw [serve, hnone]
      exact ⟨_, rfl, hpayload⟩
    · rw [serve, he]
      exact ⟨e, he, hcredential⟩
  rcases hserves.keeps hs fun s hs => Or.inr (hcreated s hs) with
    ⟨s₁, hs₁, -, rfl⟩ | ⟨hfailure, hs'⟩
  · exact ⟨fun _ => hcreated s₁ hs₁, Or.inr (hcreated s₁ hs₁)⟩
  · refine ⟨fun hok => absurd hok (hfailure.map_ne fun resp hresp => ?_), hs'⟩
    simp only [Bool.or_eq_true, decide_eq_true_eq] at hresp
    rcases hresp with hresp | hresp <;> simp [hresp]

/-- An endpoint that no project proxies is deleted, or not. -/
theorem leaves_deleteRegistryEndpoint {e : Endpoint} (he : s.endpoint = some e)
    (hproject : s.project = none) :
    (deleteRegistryEndpoint e.id).run.Leaves Serves A s fun r s' =>
      s'.project = none ∧ (s'.endpoint = none ∨ s'.endpoint = some e) ∧
        (r = .ok true → s'.endpoint = none) := by
  refine leaves_send fun answer s' hserves _ => ?_
  have hdeleted (s : State registry)
      (hs : s.project = none ∧ (s.endpoint = none ∨ s.endpoint = some e)) :
      (serve (.deleteRegistry e.id) s).2.project = none ∧
        (serve (.deleteRegistry e.id) s).2.endpoint = none := by
    obtain ⟨hproject, he | he⟩ := hs
    · rw [serve, he]
      exact ⟨hproject, he⟩
    · rw [serve, he]
      simp [hproject]
  rcases hserves.keeps ⟨hproject, Or.inr he⟩ fun s hs => (hdeleted s hs).imp_right Or.inl with
    ⟨s₁, hs₁, -, rfl⟩ | ⟨hfailure, hs'⟩
  · obtain ⟨hproject', he'⟩ := hdeleted s₁ hs₁
    exact ⟨hproject', Or.inl he', fun _ => he'⟩
  · refine ⟨hs'.1, hs'.2, fun hok => absurd hok (hfailure.map_ne fun resp hresp => ?_)⟩
    simp [of_decide_eq_true hresp]

/-- The calls that delete a project leave the endpoint as it is, and add no repository. -/
def Op.IsProjectCall : Op → Prop
  | .listRepositories _ _ _ | .deleteRepository _ _ | .deleteProject _ => True
  | _ => False

/-- The endpoint is this one, and the project has at most a hundred repositories. -/
def KeepsEndpoint (endpoint : Option Endpoint) (s : State registry) : Prop :=
  s.endpoint = endpoint ∧ Small s

theorem KeepsEndpoint.serve {endpoint : Option Endpoint} {op : Op} (hop : op.IsProjectCall)
    (hs : KeepsEndpoint endpoint s) : KeepsEndpoint endpoint (Harbor.serve op s).2 := by
  cases op with
  | listRepositories projectName page pageSize =>
    have hsame : (Harbor.serve (.listRepositories projectName page pageSize) s).2 = s := by
      rw [Harbor.serve]
      repeat' split
      all_goals rfl
    rwa [hsame]
  | deleteRepository projectName encodedPath =>
    rw [Harbor.serve]
    split
    · rename_i p hp
      split
      · refine ⟨hs.1, fun p' hp' => ?_⟩
        obtain rfl := Option.some.inj hp'
        exact Nat.le_trans (List.length_filter_le _ _) (hs.2 p hp)
      · exact hs
    · exact hs
  | deleteProject projectName =>
    rw [Harbor.serve]
    split
    · split
      · split
        · exact ⟨hs.1, fun p' hp' => by cases hp'⟩
        · exact hs
      · exact hs
    · exact hs
  | listRegistries | deleteRegistry | createRegistry => cases hop

theorem issues_deleteRepositories (projectName : String) (fuel n : ℕ) :
    (deleteRepositories projectName fuel n).Issues Op.IsProjectCall := by
  induction fuel generalizing n with
  | zero => exact issues_throw _
  | succ fuel ih =>
    refine Issues.bind (issues_request trivial) fun resp => ?_
    split
    · exact issues_pure _
    · exact Issues.bind (Issues.forM fun _ _ => Issues.bind (issues_request trivial)
        fun _ => issues_pure _) fun _ => ih _

/-- The endpoint stays while the project is deleted. -/
theorem leaves_deleteProject (hsmall : Small s) (fuel : ℕ) :
    (deleteProject fuel registry.projectName).run.Leaves Serves A s fun r s' =>
      KeepsEndpoint s.endpoint s' ∧ (r = .ok true → s'.project = none) := by
  have hkeeps (op : Op) (s₁ : State registry) (answer : Answer op) (s₂ : State registry)
      (hop : op.IsProjectCall) (h : Serves op s₁ answer s₂) (hs₁ : KeepsEndpoint s.endpoint s₁) :
      KeepsEndpoint s.endpoint s₂ := by
    rcases h.keeps hs₁ fun s₁ hs₁ => hs₁.serve hop with ⟨s₁, hs₁, -, rfl⟩ | ⟨-, hs₂⟩
    · exact hs₁.serve hop
    · exact hs₂
  have hrepositories : (deleteRepositories registry.projectName fuel 1).run.Leaves Serves A s
      fun _ s' => KeepsEndpoint s.endpoint s' := by
    exact leaves_of_keeps hkeeps (issues_deleteRepositories _ _ _) ⟨rfl, hsmall⟩
  refine leaves_bind hrepositories (fun _ s₁ hs₁ => ?_) fun _ s₁ hs₁ => ⟨hs₁, fun h => by cases h⟩
  refine leaves_send fun answer s' hserves _ => ?_
  have hop : (Op.deleteProject registry.projectName).IsProjectCall := trivial
  refine ⟨hkeeps _ _ _ _ hop hserves hs₁, fun hok => ?_⟩
  rcases hserves.keeps (K := fun _ => True) trivial fun _ _ => trivial with
    ⟨s₂, -, rfl, rfl⟩ | ⟨hfailure, -⟩
  · rw [Harbor.serve] at hok ⊢
    cases hproject : s₂.project with
    | none => simpa using hproject
    | some p =>
      by_cases hnil : p.paths = []
      · simp [hnil]
      · simp [hproject, hnil, Except.map] at hok
  · refine absurd hok (hfailure.map_ne fun resp hresp => ?_)
    simp only [Bool.or_eq_true, decide_eq_true_eq] at hresp
    rcases hresp with hresp | hresp <;> simp [hresp]

/-! ### Recovery -/

theorem result_getRegistryInfo (s : State registry) :
    (getRegistryInfo registry.name).result serve s =
      (.ok (s.endpoint.map (Endpoint.info registry)), s) := by
  rw [← find?_others_append]
  rfl

theorem result_createRegistryEndpoint {payload : Payload} (hnone : s.endpoint = none)
    (hpayload : payload.credential = some c) :
    ∃ s', (createRegistryEndpoint payload).result serve s = (.ok true, s') ∧ Reaches c s' := by
  have hcreate : (send (.createRegistry payload)).result serve s = (.ok ⟨201, ()⟩,
      { s with endpoint := some ⟨s.nextId, payload.credential⟩, nextId := s.nextId + 1 }) := by
    rw [result_send, serve, hnone]
  refine ⟨{ s with endpoint := some ⟨s.nextId, payload.credential⟩, nextId := s.nextId + 1 },
    ?_, _, rfl, hpayload⟩
  rw [createRegistryEndpoint, result_bind hcreate]
  rfl

theorem result_deleteProject_of_small (hsmall : Small s) {fuel : ℕ} (hfuel : 2 ≤ fuel) :
    (deleteProject fuel registry.projectName).result serve s =
      (.ok true, { s with project := none }) := by
  cases hproject : s.project with
  | some p => exact result_deleteProject_of_le hproject (hsmall p hproject) hfuel
  | none =>
    obtain ⟨fuel, rfl⟩ := Nat.exists_eq_add_of_le' hfuel
    have hpages : (deleteRepositories registry.projectName (fuel + 2) 1).result serve s =
        (.ok (), s) := by
      have hlist : (send (.listRepositories registry.projectName 1 pageSize)).result serve s =
          (.ok ⟨404, []⟩, s) := by
        rw [result_send, serve, hproject]
      rw [deleteRepositories, result_bind hlist]
      rfl
    have hdelete : (send (.deleteProject registry.projectName)).result serve s =
        (.ok ⟨404, ()⟩, s) := by
      rw [result_send, serve, hproject]
    rw [deleteProject, result_bind hpages, result_bind hdelete, ← hproject]
    rfl

/-- Without failures, the credential is reached. -/
theorem Recoverable.result_ensureRegistryEndpoint (hc : c.type ≠ "") (h : Recoverable c s)
    {fuel : ℕ} (hfuel : 2 ≤ fuel) :
    ∃ s', (ensureRegistryEndpoint fuel registry (some c)).result serve s = (.ok true, s') ∧
      Reaches c s' := by
  rw [ensureRegistryEndpoint, result_bind (result_getRegistryInfo s)]
  rcases h with hnone | ⟨e, he, hcredential⟩ | ⟨⟨e, he, hwithout⟩, hsmall⟩
  · rw [hnone, Option.map_none]
    exact result_createRegistryEndpoint hnone rfl
  · have hhas : endpointHasCredentials (e.info registry) = true := by
      simp [endpointHasCredentials, Endpoint.info, hcredential, hc]
    refine ⟨s, ?_, e, he, hcredential⟩
    rw [he, Option.map_some]
    simp only [hhas]
    rfl
  · rw [he, Option.map_some]
    have hdelete : (deleteRegistryEndpoint e.id).result serve { s with project := none } =
        (.ok true, { s with project := none, endpoint := none }) := by
      have hserve : (send (.deleteRegistry e.id)).result serve { s with project := none } =
          (.ok ⟨200, ()⟩, { s with project := none, endpoint := none }) := by
        rw [result_send, serve, he]
        simp
      rw [deleteRegistryEndpoint, result_bind hserve]
      rfl
    simp only [hwithout, Option.isSome_some, Bool.not_false, Bool.and_self, if_true]
    rw [recreateRegistryEndpoint, result_bind (result_deleteProject_of_small hsmall hfuel)]
    simp only [if_true]
    rw [Endpoint.info, result_bind hdelete]
    exact result_createRegistryEndpoint rfl rfl

/-- An endpoint without a credential is created again. -/
theorem leaves_recreateRegistryEndpoint {e : Endpoint} (he : s.endpoint = some e)
    (hwithout : endpointHasCredentials (e.info registry) = false) (hsmall : Small s) (fuel : ℕ)
    {payload : Payload} (hpayload : payload.credential = some c) :
    (recreateRegistryEndpoint fuel registry e.id payload).run.Leaves Serves A s fun r s' =>
      (r = .ok true → Reaches c s') ∧ Recoverable c s' := by
  have hstays {s₁ : State registry} (hs₁ : KeepsEndpoint s.endpoint s₁) : Recoverable c s₁ :=
    Or.inr (Or.inr ⟨⟨e, hs₁.1.trans he, hwithout⟩, hs₁.2⟩)
  refine leaves_bind (leaves_deleteProject hsmall fuel) (fun projectDeleted s₁ hs₁ => ?_)
    fun _ s₁ hs₁ => ⟨fun h => (by cases h), hstays hs₁.1⟩
  cases projectDeleted with
  | false => exact leaves_pure ⟨fun h => (by cases h), hstays hs₁.1⟩
  | true =>
    have hproject := hs₁.2 rfl
    have hgone {s₂ : State registry} (hs₂ : s₂.project = none)
        (he₂ : s₂.endpoint = none ∨ s₂.endpoint = some e) : Recoverable c s₂ := by
      refine he₂.imp_right fun he₂ => Or.inr ⟨⟨e, he₂, hwithout⟩, fun p hp => ?_⟩
      cases hs₂.symm.trans hp
    refine leaves_bind (leaves_deleteRegistryEndpoint (hs₁.1.1.trans he) hproject)
      (fun endpointDeleted s₂ hs₂ => ?_)
      fun _ s₂ hs₂ => ⟨fun h => (by cases h), hgone hs₂.1 hs₂.2.1⟩
    cases endpointDeleted with
    | false => exact leaves_pure ⟨fun h => (by cases h), hgone hs₂.1 hs₂.2.1⟩
    | true =>
      exact (leaves_createRegistryEndpoint hpayload (Or.inl (hs₂.2.2 rfl))).mono fun r s' hr =>
        ⟨hr.1, hr.2.imp_right Or.inl⟩

/-- Whatever fails, the credential is reached if the endpoint is reported, and it can be reached
afterwards. -/
theorem leaves_ensureRegistryEndpoint (hc : c.type ≠ "")
    (h : s.endpoint = none ∨ Reaches c s ∨
      WithoutCredential s ∧ Small s ∧ ∀ x, A x → LookupAnswered x) (fuel : ℕ) :
    (ensureRegistryEndpoint fuel registry (some c)).run.Leaves Serves A s fun r s' =>
      (r = .ok true → Reaches c s') ∧ Recoverable c s' := by
  refine leaves_bind (leaves_getRegistryInfo s) (fun existing s₁ hlookup => ?_)
    fun _ s₁ hlookup => ?_
  · obtain ⟨rfl, hexisting⟩ := hlookup
    have hcreate (s₁ : State registry) (hs₁ : s₁.endpoint = none ∨ Reaches c s₁) :
        (createRegistryEndpoint ⟨registry.name, registry.url, registry.type, false,
          some c⟩).run.Leaves Serves A s₁ fun r s' =>
            (r = .ok true → Reaches c s') ∧ Recoverable c s' :=
      (leaves_createRegistryEndpoint rfl hs₁).mono fun r s' hr =>
        ⟨hr.1, hr.2.imp_right Or.inl⟩
    rcases h with hnone | hreaches | ⟨⟨e, he, hwithout⟩, hsmall, hanswered⟩
    · rw [hnone] at hexisting
      obtain rfl : existing = none := (hexisting existing rfl).elim id And.left
      exact hcreate s₁ (Or.inl hnone)
    · obtain ⟨e, he, hcredential⟩ := hreaches
      rcases hexisting existing rfl with rfl | ⟨rfl, -⟩
      · have hhas : endpointHasCredentials (e.info registry) = true := by
          simp [endpointHasCredentials, Endpoint.info, hcredential, hc]
        rw [he, Option.map_some]
        simp only [hhas]
        exact leaves_pure ⟨fun _ => ⟨e, he, hcredential⟩, Or.inr (Or.inl ⟨e, he, hcredential⟩)⟩
      · exact hcreate s₁ (Or.inr ⟨e, he, hcredential⟩)
    · rcases hexisting existing rfl with rfl | ⟨-, x, hx, hnot⟩
      · rw [he, Option.map_some]
        simp only [hwithout, Option.isSome_some, Bool.not_false, Bool.and_self, if_true]
        exact leaves_recreateRegistryEndpoint he hwithout hsmall fuel rfl
      · exact absurd (hanswered x hx) hnot
  · obtain ⟨rfl, -⟩ := hlookup
    refine ⟨fun h => (by cases h), ?_⟩
    exact h.imp_right (Or.imp_right fun h => ⟨h.1, h.2.1⟩)

/-! ### Failure -/

theorem serves_serve (op : Op) (s : State registry) :
    Serves op s (serve op s).1 (serve op s).2 := ⟨s, Or.inl rfl, Or.inl rfl⟩

theorem serves_failure {op : Op} {answer : Answer op} (h : Failure answer) (s : State registry) :
    Serves op s answer s := ⟨s, Or.inl rfl, Or.inr ⟨h, rfl⟩⟩

theorem failure_internal {op : Op} (body : op.Body) :
    Failure (.ok ⟨500, body⟩ : Answer op) := by
  intro resp hresp
  cases hresp
  change 500 ∉ [200, 201, 404, 409]
  decide

theorem exec_send {op : Op} {resp : Response op.Body} (h : Serves op s (.ok resp) s') :
    Exec Serves (send op).run s [⟨op, .ok resp, s, s'⟩] (.ok resp) s' := .call h (.done _ _)

/-- Harbor answers lookups. -/
theorem lookupAnswered_of_served {x : Served Op Answer (State registry)}
    (h : x.res = (serve x.op x.before).1) : LookupAnswered x := by
  obtain ⟨op, res, before, after⟩ := x
  have hres : res = (serve op before).1 := h
  subst hres
  cases op with
  | listRegistries => rfl
  | _ => trivial

/-- What converges does so without failures. -/
theorem Converges.result (h : Converges LookupAnswered c s) (fuel : ℕ)
    (hresult : (ensureRegistryEndpoint fuel registry (some c)).result serve s = (.ok true, s')) :
    Reaches c s' := by
  have hrun := exec_run serves_serve (ensureRegistryEndpoint fuel registry (some c)).run s
  have hleft := h fuel _ _ _ hrun fun x hx => lookupAnswered_of_served (served_exchanges hx)
  rw [show Program.run serve _ s = _ from hresult] at hleft
  exact hleft.1 rfl

/-- An endpoint with another credential keeps it. -/
theorem not_converges_of_other {e : Endpoint} (he : s.endpoint = some e)
    (hother : endpointHasCredentials (e.info registry) = true) (hc : ¬ Reaches c s) :
    ¬ Converges LookupAnswered c s := by
  intro h
  refine hc (h.result 0 ?_)
  rw [ensureRegistryEndpoint, result_bind (result_getRegistryInfo s), he, Option.map_some]
  simp only [hother]
  rfl

/-- An endpoint that is not seen counts as created. -/
theorem not_converges_of_unanswered {e : Endpoint} (he : s.endpoint = some e)
    (hc : ¬ Reaches c s) : ¬ Converges (fun _ => True) c s := by
  intro h
  have hlookup : Exec Serves (getRegistryInfo registry.name).run s _ (.ok none) s :=
    exec_bind_ok (exec_send (serves_failure (failure_internal []) s)) (.done _ _)
  have hconflict : Serves (.createRegistry
      ⟨registry.name, registry.url, registry.type, false, some c⟩) s (.ok ⟨409, ()⟩) s := by
    have hserve := serves_serve (.createRegistry
      ⟨registry.name, registry.url, registry.type, false, some c⟩) s
    rwa [serve, he] at hserve
  have hcreate : Exec Serves (createRegistryEndpoint
      ⟨registry.name, registry.url, registry.type, false, some c⟩).run s _ (.ok true) s :=
    exec_bind_ok (exec_send hconflict) (.done _ _)
  have hrun : Exec Serves (ensureRegistryEndpoint 0 registry (some c)).run s _ (.ok true) s :=
    exec_bind_ok hlookup hcreate
  exact hc ((h 0 _ _ _ hrun fun _ _ => trivial).1 rfl)

/-- Where the repositories cannot be listed, a project that has some is not deleted. -/
theorem exec_deleteProject_failure {p : Project} (hproject : s.project = some p)
    (hne : p.paths ≠ []) :
    ∃ t, Exec Serves (deleteProject 1 registry.projectName).run s t (.ok false) s ∧
      ∀ x ∈ t, LookupAnswered x := by
  have hlist : Exec Serves (deleteRepositories registry.projectName 1 1).run s _ (.ok ()) s :=
    exec_bind_ok (exec_send (serves_failure (failure_internal []) s)) (.done _ _)
  have hrefused : Serves (.deleteProject registry.projectName) s (.ok ⟨412, ()⟩) s := by
    have hserve := serves_serve (.deleteProject registry.projectName) s
    rw [serve, hproject] at hserve
    simpa only [if_true, hne, if_false] using hserve
  exact ⟨_, exec_bind_ok hlist (exec_bind_ok (exec_send hrefused) (.done _ _)),
    by simp [LookupAnswered]⟩

/-- A large project is not deleted without failures, so the endpoint is not created again. -/
theorem result_recreateRegistryEndpoint_of_lt {p : Project} (hproject : s.project = some p)
    (hlarge : pageSize < p.paths.length) {fuel registryId : ℕ} {payload : Payload} :
    (recreateRegistryEndpoint fuel registry registryId payload).result serve s ≠
      (.ok true, s') := by
  intro hresult
  rw [recreateRegistryEndpoint] at hresult
  cases hdelete : (deleteProject fuel registry.projectName).result serve s with
  | mk r s₁ =>
    rcases r with e | - | -
    · rw [result_bind_error hdelete] at hresult
      cases hresult
    · rw [result_bind hdelete] at hresult
      cases hresult
    · exact result_deleteProject_of_lt hproject hlarge hdelete

/-- A failure to list the repositories of a large project is not recovered from. -/
theorem not_converges_of_large {e : Endpoint} (he : s.endpoint = some e)
    (hwithout : endpointHasCredentials (e.info registry) = false) {p : Project}
    (hproject : s.project = some p) (hlarge : pageSize < p.paths.length) :
    ¬ Converges LookupAnswered c s := by
  intro h
  have hne : p.paths ≠ [] := by
    rintro hnil
    rw [hnil] at hlarge
    exact absurd hlarge (Nat.not_lt_zero _)
  have hlookup : Exec Serves (getRegistryInfo registry.name).run s
      ((getRegistryInfo registry.name).run.exchanges serve s) (.ok (some (e.info registry))) s := by
    have hrun := exec_run serves_serve (getRegistryInfo registry.name).run s
    rw [show Program.run serve _ s = _ from result_getRegistryInfo s, he] at hrun
    exact hrun
  obtain ⟨t, hdelete, ht⟩ := exec_deleteProject_failure hproject hne
  have hrun : Exec Serves (ensureRegistryEndpoint 1 registry (some c)).run s
      ((getRegistryInfo registry.name).run.exchanges serve s ++ (t ++ [])) (.ok false) s := by
    refine exec_bind_ok hlookup ?_
    simp only [hwithout, Option.isSome_some, Bool.not_false, Bool.and_self, if_true]
    exact exec_bind_ok hdelete (.done _ _)
  rw [List.append_nil] at hrun
  obtain ⟨enough, hagain⟩ := (h 1 _ _ _ hrun (List.forall_mem_append.mpr
    ⟨fun x hx => lookupAnswered_of_served (served_exchanges hx), ht⟩)).2 rfl
  obtain ⟨s', hresult, -⟩ := hagain enough (Nat.le_refl _)
  rw [ensureRegistryEndpoint, result_bind (result_getRegistryInfo s), he, Option.map_some]
    at hresult
  simp only [hwithout, Option.isSome_some, Bool.not_false, Bool.and_self, if_true] at hresult
  exact result_recreateRegistryEndpoint_of_lt hproject hlarge hresult

/-- The credential is reached, or can be reached after a failure, from these states and no others:
where there is no endpoint or one with the credential, and, if lookups are answered, where there is
one without a credential whose project has at most a hundred repositories. -/
theorem converges_iff (hc : c.type ≠ "") (s : State registry) :
    (Converges (fun _ => True) c s ↔ s.endpoint = none ∨ Reaches c s) ∧
      (Converges LookupAnswered c s ↔
        s.endpoint = none ∨ Reaches c s ∨ WithoutCredential s ∧ Small s) := by
  have hrecover {s' : State registry} (h : Recoverable c s') : ∃ enough, ∀ fuel ≥ enough, ∃ s'',
      (ensureRegistryEndpoint fuel registry (some c)).result serve s' = (.ok true, s'') ∧
        Reaches c s'' :=
    ⟨2, fun fuel hfuel => h.result_ensureRegistryEndpoint hc hfuel⟩
  constructor
  · constructor
    · intro h
      rcases he : s.endpoint with - | e
      · exact Or.inl rfl
      · exact Or.inr (by_contra fun hreaches => not_converges_of_unanswered he hreaches h)
    · intro h fuel
      refine (leaves_ensureRegistryEndpoint hc (h.imp_right Or.inl) fuel).mono fun r s' hr => ?_
      exact ⟨hr.1, fun _ => hrecover hr.2⟩
  · constructor
    · intro h
      rcases he : s.endpoint with - | e
      · exact Or.inl rfl
      · refine Or.inr (or_iff_not_imp_left.mpr fun hreaches => ?_)
        have hwithout : endpointHasCredentials (e.info registry) = false := by
          by_contra hhas
          exact not_converges_of_other he ((Bool.not_eq_false _).mp hhas) hreaches h
        refine ⟨⟨e, he, hwithout⟩, fun p hproject => ?_⟩
        by_contra hlarge
        exact not_converges_of_large he hwithout hproject (Nat.lt_of_not_le hlarge) h
    · intro h fuel
      refine (leaves_ensureRegistryEndpoint hc ?_ fuel).mono fun r s' hr => ?_
      · exact h.imp_right (Or.imp_right fun h => ⟨h.1, h.2, fun _ hx => hx⟩)
      · exact ⟨hr.1, fun _ => hrecover hr.2⟩

/-- The credential with a token. -/
def credentialOf (token : String) : Credential := ⟨"basic", "ci", token⟩

/-- An endpoint without a credential, with three repositories in its project. -/
theorem converges_cacheOf : Converges LookupAnswered (credentialOf "new") (cacheOf 3) := by
  refine (converges_iff (by decide) _).2.mpr (Or.inr (Or.inr ⟨⟨_, rfl, rfl⟩, fun p hp => ?_⟩))
  obtain rfl := Option.some.inj hp
  simp [projectOf, pageSize]

/-- An endpoint with an old token. -/
def staleCache : State dockerhub :=
  ⟨some ⟨1, some (credentialOf "old")⟩, none, 2, [], noOthers⟩

/-- The endpoint keeps the old token, and is reported. -/
theorem staleCache_not_converges :
    (ensureRegistryEndpoint 2 dockerhub (some (credentialOf "new"))).result serve staleCache =
        (.ok true, staleCache) ∧
      ¬ Reaches (credentialOf "new") staleCache ∧
      ¬ Converges (fun _ => True) (credentialOf "new") staleCache ∧
      ¬ Converges LookupAnswered (credentialOf "new") staleCache := by
  have hc : ¬ Reaches (credentialOf "new") staleCache := by
    rintro ⟨e, he, hcredential⟩
    cases he
    exact absurd hcredential (by decide)
  exact ⟨rfl, hc, not_converges_of_unanswered rfl hc, not_converges_of_other rfl rfl hc⟩

end CiInfra.Harbor
