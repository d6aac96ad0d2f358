import CiInfra.Lib.Fallible
import Mathlib.Data.List.Nodup

/-!
# The Harbor API

Harbor caches an upstream registry in a project that proxies an endpoint for it. A project is
deleted only when it is empty, and an endpoint only when no project proxies it. The listing of an
endpoint shows the type of its credential, but not the secret.
-/

namespace CiInfra.Harbor

/-- What an endpoint logs in with. -/
structure Credential where
  type : String
  accessKey : String
  accessSecret : String
  deriving DecidableEq

/-- An entry of `REGISTRIES`. The name of a project has no slash. -/
structure Registry where
  name : String
  url : String
  type : String
  projectName : String
  noSlash : '/' ∉ projectName.toList

/-- What is posted for an endpoint. -/
structure Payload where
  name : String
  url : String
  type : String
  insecure : Bool
  credential : Option Credential

/-- What a listing shows of an endpoint. -/
structure RegistryInfo where
  id : ℕ
  name : String
  credentialType : Option String

/-- A status, and a body, which is read only with the status of success. -/
structure Response (α : Type) where
  status : ℕ
  body : α

inductive Op
  | listRepositories (projectName : String) (page pageSize : ℕ)
  | deleteRepository (projectName encodedPath : String)
  | deleteProject (projectName : String)
  | listRegistries (name : String)
  | deleteRegistry (registryId : ℕ)
  | createRegistry (payload : Payload)

inductive Raised
  /-- A request fails without a response. -/
  | request
  /-- The program goes on for longer than it is watched. -/
  | unfinished

abbrev Op.Body : Op → Type
  | listRepositories _ _ _ => List String
  | listRegistries _ => List RegistryInfo
  | deleteRepository _ _ | deleteProject _ | deleteRegistry _ | createRegistry _ => Unit

abbrev Answer (op : Op) : Type := Except Raised (Response op.Body)

/-- Programs that talk to Harbor. -/
abbrev Api := Interaction.Fallible Op Answer Raised

def send (op : Op) : Api (Response op.Body) := Interaction.Fallible.request op id

/-! ### Names in paths -/

/-- The part of a repository's name after the project. -/
def repoPath (repoName : String) : String :=
  match repoName.toList.dropWhile (· ≠ '/') with
  | [] => repoName
  | _ :: path => String.ofList path

/-- `%252F` for every slash. -/
def encodedPath (path : String) : String :=
  String.ofList (path.toList.flatMap fun c => if c = '/' then ['%', '2', '5', '2', 'F'] else [c])

/-- The value of a hexadecimal digit. -/
def hexDigit? (c : Char) : Option ℕ :=
  if c.isDigit then some (c.toNat - '0'.toNat)
  else if 'A' ≤ c ∧ c ≤ 'F' then some (c.toNat - 'A'.toNat + 10)
  else if 'a' ≤ c ∧ c ≤ 'f' then some (c.toNat - 'a'.toNat + 10)
  else none

/-- Resolve the percent signs. -/
def percentDecode : List Char → List Char
  | '%' :: c :: d :: cs =>
    match hexDigit? c, hexDigit? d with
    | some m, some n => Char.ofNat (16 * m + n) :: percentDecode cs
    | _, _ => '%' :: percentDecode (c :: d :: cs)
  | c :: cs => c :: percentDecode cs
  | [] => []

/-- What a proxy and Harbor behind it make of a path, each decoding it once. -/
def decodedPath (encodedPath : String) : String :=
  String.ofList (percentDecode (percentDecode encodedPath.toList))

/-- Repository names are made of small letters, digits, dots, underscores, hyphens and slashes, and
begin with a letter or digit. -/
def IsRepositoryPath (path : String) : Prop :=
  (∃ c cs, path.toList = c :: cs ∧ (c.isLower = true ∨ c.isDigit = true)) ∧
    ∀ c ∈ path.toList, c.isLower = true ∨ c.isDigit = true ∨ c ∈ ['.', '_', '-', '/']

/-! ### Harbor -/

/-- The repositories of a project. -/
structure Project where
  paths : List String
  nodup : paths.Nodup
  arePaths : ∀ path ∈ paths, IsRepositoryPath path

/-- The project without a repository. -/
def Project.delete (p : Project) (path : String) : Project where
  paths := p.paths.filter (· ≠ path)
  nodup := p.nodup.filter _
  arePaths := fun path' h => p.arePaths path' (List.mem_filter.mp h).1

structure Endpoint where
  id : ℕ
  credential : Option Credential

/-- Harbor, as far as it concerns one registry: its endpoint, its project, the next identity, and
what else a listing shows of endpoints with names like its own. -/
structure State (registry : Registry) where
  endpoint : Option Endpoint
  project : Option Project
  nextId : ℕ
  others : List RegistryInfo
  others_ne : ∀ info ∈ others, info.name ≠ registry.name

section Serving

variable {registry : Registry}

/-- What a listing shows of the endpoint. -/
def Endpoint.info (registry : Registry) (e : Endpoint) : RegistryInfo :=
  ⟨e.id, registry.name, e.credential.map Credential.type⟩

/-- What Harbor answers to a call, and what it does. -/
def serve : (op : Op) → State registry → Answer op × State registry
  | .listRepositories projectName page pageSize, s =>
    match s.project with
    | some p =>
      if projectName = registry.projectName then
        (.ok ⟨200, ((p.paths.drop ((page - 1) * pageSize)).take pageSize).map fun path =>
          projectName ++ "/" ++ path⟩, s)
      else (.ok ⟨404, []⟩, s)
    | none => (.ok ⟨404, []⟩, s)
  | .deleteRepository projectName encodedPath, s =>
    match s.project with
    | some p =>
      if projectName = registry.projectName ∧ decodedPath encodedPath ∈ p.paths then
        (.ok ⟨200, ()⟩, { s with project := some (p.delete (decodedPath encodedPath)) })
      else (.ok ⟨404, ()⟩, s)
    | none => (.ok ⟨404, ()⟩, s)
  | .deleteProject projectName, s =>
    match s.project with
    | some p =>
      if projectName = registry.projectName then
        if p.paths = [] then (.ok ⟨200, ()⟩, { s with project := none })
        else (.ok ⟨412, ()⟩, s)
      else (.ok ⟨404, ()⟩, s)
    | none => (.ok ⟨404, ()⟩, s)
  | .listRegistries _, s =>
    (.ok ⟨200, s.others ++ s.endpoint.toList.map (Endpoint.info registry)⟩, s)
  | .deleteRegistry registryId, s =>
    match s.endpoint with
    | some e =>
      if e.id = registryId then
        if s.project.isSome then (.ok ⟨412, ()⟩, s)
        else (.ok ⟨200, ()⟩, { s with endpoint := none })
      else (.ok ⟨404, ()⟩, s)
    | none => (.ok ⟨404, ()⟩, s)
  | .createRegistry payload, s =>
    match s.endpoint with
    | some _ => (.ok ⟨409, ()⟩, s)
    | none =>
      (.ok ⟨201, ()⟩,
        { s with endpoint := some ⟨s.nextId, payload.credential⟩, nextId := s.nextId + 1 })

/-- The response is that of a failure, for which Harbor has no other meaning, or there is none. -/
def Failure {op : Op} (answer : Answer op) : Prop :=
  ∀ resp, answer = .ok resp → resp.status ∉ [200, 201, 404, 409]

/-- How a call may go: Harbor may get it, more than once if its answer is lost, and the caller gets
the last answer or a failure. -/
def Serves (op : Op) (s : State registry) (answer : Answer op) (s' : State registry) : Prop :=
  ∃ s₁, (s₁ = s ∨ s₁ = (serve op s).2) ∧
    ((answer, s') = serve op s₁ ∨ Failure answer ∧ s' = s₁)

end Serving

end CiInfra.Harbor

/-!
## The endpoint of a registry

An endpoint is found by its name. As the API does not change the credential of an endpoint, it is
deleted, with the project that proxies it, and created again.
-/

namespace CiInfra.Harbor

/-- Get full info for a registry endpoint by name, or `none` if not found. -/
def getRegistryInfo (registryName : String) : Api (Option RegistryInfo) := do
  let resp ← send (.listRegistries registryName)
  return if resp.status = 200 then resp.body.find? fun reg => reg.name = registryName else none

/-- Check if an existing registry endpoint has credentials configured. -/
def endpointHasCredentials (registryInfo : RegistryInfo) : Bool :=
  registryInfo.credentialType.any (· ≠ "")

/-- Delete a registry endpoint by ID. -/
def deleteRegistryEndpoint (registryId : ℕ) : Api Bool := do
  let resp ← send (.deleteRegistry registryId)
  return resp.status = 200

def pageSize : ℕ := 100

/-- Delete a repository. What is answered is only logged. -/
def deleteRepository (projectName repoName : String) : Api Unit := do
  let _ ← send (.deleteRepository projectName (encodedPath (repoPath repoName)))

/-- Delete the repositories on the pages from a page on, as long as there are any, but at most
`fuel` pages. -/
def deleteRepositories (projectName : String) : (fuel page : ℕ) → Api Unit
  | 0, _ => throw .unfinished
  | fuel + 1, page => do
    let resp ← send (.listRepositories projectName page pageSize)
    if resp.status ≠ 200 ∨ resp.body = [] then pure ()
    else do
      resp.body.forM (deleteRepository projectName)
      deleteRepositories projectName fuel (page + 1)

/-- Delete a proxy cache project by name, after the repositories in it. -/
def deleteProject (fuel : ℕ) (projectName : String) : Api Bool := do
  deleteRepositories projectName fuel 1
  let resp ← send (.deleteProject projectName)
  return resp.status = 200 || resp.status = 404

/-- Create the endpoint. A conflict counts as success. -/
def createRegistryEndpoint (payload : Payload) : Api Bool := do
  let resp ← send (.createRegistry payload)
  return resp.status = 201 || resp.status = 409

/-- Delete the project and the endpoint, and create the endpoint again. -/
def recreateRegistryEndpoint (fuel : ℕ) (registry : Registry) (registryId : ℕ)
    (payload : Payload) : Api Bool := do
  let projectDeleted ← deleteProject fuel registry.projectName
  if projectDeleted then do
    let endpointDeleted ← deleteRegistryEndpoint registryId
    if endpointDeleted then createRegistryEndpoint payload else return false
  else return false

/-- Ensure a registry endpoint exists with the correct credentials. -/
def ensureRegistryEndpoint (fuel : ℕ) (registry : Registry) (credentials : Option Credential) :
    Api Bool := do
  let payload : Payload := ⟨registry.name, registry.url, registry.type, false, credentials⟩
  let existing ← getRegistryInfo registry.name
  match existing with
  | none => createRegistryEndpoint payload
  | some info =>
    if credentials.isSome && !endpointHasCredentials info then
      recreateRegistryEndpoint fuel registry info.id payload
    else return true

end CiInfra.Harbor
