import CiInfra.Lib.Octets
import CiInfra.Lib.Regex
import CiInfra.Lib.Runs

/-!
# The hook wrapper

The runner starts a wrapper in place of the real hook. The wrapper reads its stdin, looks at the
environment variables of a step, starts the hook with what it has read, passes signals on and exits
with the code of the hook. On which runs does it show that there is something in between?
-/

namespace CiInfra.Runners.HookWrapper

open TextLines (decode encode replacement)

/-! ### Environment variables -/

/-- A JSON value. The entries of an object stand in the order of `Object.entries`. -/
inductive Json
  | null
  | bool (b : Bool)
  | number
  | string (s : List Char)
  | array (items : List Json)
  | object (entries : List (List Char × Json))

/-- A property, unless it is undefined. -/
def Json.property (name : String) : Json → Option Json
  | object entries => entries.lookup name.toList
  | _ => none

/-- `Object.entries`, of what is an object to `typeof`. -/
def Json.entries : Json → List (List Char × Json)
  | array items => items.zipIdx.map fun item => ((toString item.2).toList, item.1)
  | object entries => entries
  | _ => []

/-- `SKIP_VARS`. -/
def skipVars : List String :=
  ["GITHUB_EVENT", "GITHUB_CONTEXT", "GITHUB_EVENT_PATH", "RUNNER_CONTEXT", "STEPS_CONTEXT",
    "NEEDS_CONTEXT", "INPUTS_CONTEXT", "MATRIX_CONTEXT", "STRATEGY_CONTEXT", "ENV_CONTEXT",
    "VARS_CONTEXT", "JOB_CONTEXT"]

/-- `\s`. -/
def isSpace (c : Char) : Bool :=
  (9 ≤ c.toNat ∧ c.toNat ≤ 13) || (0x2000 ≤ c.toNat ∧ c.toNat ≤ 0x200a) ||
    [0x20, 0xa0, 0x1680, 0x2028, 0x2029, 0x202f, 0x205f, 0x3000, 0xfeff].contains c.toNat

/-- A member of an object whose value begins so. -/
def member (name value : String) : Regex :=
  .seq (.text ("\"" ++ name ++ "\"").toList) (.seq (.star (.char isSpace)) (.seq (.lit ':')
    (.seq (.star (.char isSpace)) (.text value.toList))))

/-- A text in any case. -/
def anyCase (s : String) : Regex :=
  s.toList.foldr (fun c r => .seq (.char fun d => d.toLower = c.toLower) r) .empty

/-- `BAD_PATTERNS`. -/
def badPatterns : List (Regex × String) :=
  [(member "message" "\"API rate limit exceeded", "GitHub API rate limit error"),
    (member "message" "\"Bad credentials\"", "GitHub auth error"),
    (member "message" "\"Not Found\"", "GitHub 404 error"),
    (member "documentation_url" "\"https://docs.github.com", "GitHub API error response"),
    (.seq (anyCase "<!DOCTYPE") (.seq (.plus (.char isSpace)) (anyCase "html>")),
      "HTML error page"),
    (.seq (anyCase "<html") (.char fun c => isSpace c || c == '>'), "HTML content")]

/-- `length`, in code units. -/
def units (s : List Char) : ℕ := s.length + s.countP fun c => 0x10000 ≤ c.toNat

/-- `slice(0, n)`. Half of a character is replaced when it is written. -/
def slice : ℕ → List Char → List Char
  | 0, _ => []
  | _, [] => []
  | 1, c :: _ => if c.toNat < 0x10000 then [c] else [replacement]
  | n + 2, c :: s => if c.toNat < 0x10000 then c :: slice (n + 1) s else c :: slice n s

structure Problem where
  name : List Char
  label : String
  snippet : List Char

/-- The problem with a variable, if there is one. -/
def problem (entry : List Char × Json) : Option Problem :=
  if skipVars.any fun name => name.toList = entry.1 then none
  else match entry.2 with
    | .string value =>
      if units value < 30 then none
      else (badPatterns.find? fun pattern => (pattern.1.search value).isSome).map fun pattern =>
        ⟨entry.1, pattern.2, slice 200 value⟩
    | _ => none

/-- `validateEnvVars`. -/
def validateEnvVars (envVars : Option Json) : List Problem :=
  ((envVars.map Json.entries).getD []).filterMap problem

/-! ### Messages -/

/-- What is printed. -/
inductive Message
  | spawnError (message : String)
  | wrapperError (message : String)
  | corrupted (problems : List Problem)
  | cancelled (signal : String)
  | scriptFailed (code : ℕ)

def Message.level : Message → String
  | spawnError _ | wrapperError _ => "warning"
  | _ => "error"

def Message.text : Message → List Char
  | spawnError message => ("[OSDC] Hook spawn error: " ++ message).toList
  | wrapperError message => ("[OSDC] Wrapper error (fail-open): " ++ message).toList
  | corrupted problems =>
    let details := problems.map fun p =>
      "  ".toList ++ p.name ++ (": " ++ p.label ++ "%0A    Content: ").toList ++ p.snippet ++
        "...".toList
    ("[OSDC] Corrupted environment variables detected — this is an upstream " ++
      "workflow issue, not an infrastructure problem.%0A%0A" ++
      "The following variables contain error responses instead of expected values:%0A").toList ++
    "%0A".toList.intercalate details ++
    ("%0A%0AThis typically happens when a GitHub API call fails (e.g., rate limiting) " ++
      "and the error response is captured into a variable without validation. " ++
      "The upstream workflow needs to add error checking (set -o pipefail, " ++
      "validate API responses before using them).").toList
  | cancelled signal =>
    ("[OSDC] Step cancelled by GitHub Actions (received " ++ signal ++ "). " ++
      "This typically means matrix fail-fast, a manual cancel, a workflow " ++
      "concurrency override, or a run-level cancellation — NOT an OSDC " ++
      "infrastructure failure. Check the workflow-run page for the actual " ++
      "cause; the in-pod subprocess is terminated by the hook so post-cleanup " ++
      "steps can run.").toList
  | scriptFailed code =>
    ("[OSDC] Step script exited with code " ++ toString code ++ ". " ++
      "This is a script/workflow error, not an infrastructure issue. " ++
      "Check the step logs above for the actual failure.").toList

/-- The line that `emit` writes. -/
def Message.line (m : Message) : List Char :=
  ("::" ++ m.level ++ "::").toList ++
    (m.text.flatMap fun c => if c = '\n' then "%0A".toList else [c]) ++ ['\n']

/-! ### The hook -/

/-- The signals that the wrapper handles. -/
inductive Signal
  | sigterm
  | sigint
  deriving DecidableEq

/-- How a process ends. -/
inductive End
  | exited (code : ℕ)
  | killed (signal : String)
  deriving DecidableEq

/-- What `spawnReal` gives: a code, or a signal. -/
inductive Result
  | code (code : ℕ)
  | signal (signal : String)

/-- `exitCodeFor`. -/
def exitCodeFor : Result → ℕ
  | .signal signal => if signal = "SIGINT" then 130 else if signal = "SIGTERM" then 143 else 128
  | .code code => code

/-- What becomes of a call of `spawn`: the hook starts, or there is an error event, or the call
throws an error. A child for which there are no descriptors has no pipe, and an error event too. -/
inductive Spawn
  | starts
  | fails (message : String)
  | throws (message : String)
  | withoutPipe
  deriving DecidableEq

/-- The call throws an error, or what is done next with the child does. -/
def Spawn.isRaising : Spawn → Bool
  | throws _ | withoutPipe => true
  | _ => false

/-- What the wrapper finds: `JSON.parse`, which may throw an error, and what becomes of each call of
`spawn`. -/
structure Services where
  parse : List Char → Option Json
  spawn : ℕ → Spawn

/-! ### The wrapper -/

/-- Who waits for the result. -/
inductive Caller
  | passThrough
  | step
  | failOpen
  deriving DecidableEq

/-- A child that is running, or that has not been started. -/
inductive Child
  | running
  | failed (message : String)
  deriving DecidableEq

inductive Phase
  | reading
  | waiting (caller : Caller) (child : Child)
  | exited (code : ℕ)
  deriving DecidableEq

/-- Where the wrapper is, and what has happened: what it has read and received, what it has passed
on, what each hook has been given, and how it has ended. -/
structure State where
  phase : Phase := .reading
  chunks : List (List UInt8) := []
  received : List Signal := []
  forwarded : List Signal := []
  tries : ℕ := 0
  started : List (List UInt8) := []
  ended : Option End := none
  printed : List Message := []

/-- What is on stdin, as far as it has been read. -/
def State.stdin (s : State) : List UInt8 := s.chunks.flatten

/-- `data`: each chunk is a text of its own. -/
def State.data (s : State) : List Char := s.chunks.flatMap decode

/-- What `main` does before it starts the hook. -/
inductive Plan
  | refuse (problems : List Problem)
  | start (caller : Caller)
  | crash (message : String)

/-- The command has the name. -/
def isCommand (name : String) (input : Json) : Bool :=
  match input.property "command" with
  | some (.string s) => s == name.toList
  | _ => false

def plan (parse : List Char → Option Json) (data : List Char) : Plan :=
  match parse data with
  | none => .start .passThrough
  | some .null => .crash "Cannot read properties of null (reading 'command')"
  | some input =>
    if isCommand "run_script_step" input || isCommand "run_container_step" input then
      let args := input.property "args"
      match validateEnvVars (args.bind (Json.property "environmentVariables")) with
      | [] => .start .step
      | problems => .refuse problems
    else .start .passThrough

variable (v : Services)

/-- The hook has been started, or will not be. -/
def State.spawned (s : State) (caller : Caller) (child : Child) : State :=
  { s with
    phase := .waiting caller child
    tries := s.tries + 1
    started := if child = .running then s.started ++ [encode s.data] else s.started }

/-- The call of `spawnReal` after an error. -/
def failOpen (message : String) (s : State) : State :=
  let s : State := { s with printed := s.printed ++ [.wrapperError message] }
  match v.spawn s.tries with
  | .starts => s.spawned .failOpen .running
  | .fails message => s.spawned .failOpen (.failed message)
  | .throws _ | .withoutPipe => { s with phase := .exited 1, tries := s.tries + 1 }

/-- The first call of `spawnReal`. An error event that nobody listens to ends the process. -/
def spawnReal (caller : Caller) (s : State) : State :=
  match v.spawn s.tries with
  | .starts => s.spawned caller .running
  | .fails message => s.spawned caller (.failed message)
  | .throws message => failOpen v message { s with tries := s.tries + 1 }
  | .withoutPipe =>
    { failOpen v "Cannot read properties of undefined (reading 'write')"
        { s with tries := s.tries + 1 } with phase := .exited 1 }

/-- `main`, up to where it waits. -/
def main (s : State) : State :=
  match plan v.parse s.data with
  | .refuse problems => { s with phase := .exited 1, printed := s.printed ++ [.corrupted problems] }
  | .start caller => spawnReal v caller s
  | .crash message => failOpen v message s

/-- The rest of `main`. -/
def resolve (caller : Caller) (result : Result) (s : State) : State :=
  let printed := if caller = .step then
    match result with
    | .signal signal => [.cancelled signal]
    | .code 130 => [.cancelled "SIGINT"]
    | .code 143 => [.cancelled "SIGTERM"]
    | .code 0 => []
    | .code code => [.scriptFailed code]
  else []
  { s with phase := .exited (exitCodeFor result), printed := s.printed ++ printed }

/-- What can happen to the wrapper: a signal, a piece of its stdin or the end of it, the end of the
hook, the error event of one that has not been started, or an error of the pipe to it. -/
inductive Event
  | signal (signal : Signal)
  | chunk (octets : List UInt8)
  | eof
  | closed (e : End)
  | error
  | broken

/-- What is done then. What cannot happen changes nothing. -/
def step (s : State) : Event → State
  | .signal signal =>
    match s.phase with
    | .exited _ => s
    | .waiting _ .running =>
      { s with received := s.received ++ [signal], forwarded := s.forwarded ++ [signal] }
    | _ => { s with received := s.received ++ [signal] }
  | .chunk octets =>
    match s.phase with
    | .reading => { s with chunks := s.chunks ++ [octets] }
    | _ => s
  | .eof =>
    match s.phase with
    | .reading => main v s
    | _ => s
  | .closed e =>
    match s.phase with
    | .waiting caller .running =>
      let s : State := { s with ended := some e }
      match e with
      | .exited code => resolve caller (.code code) s
      | .killed signal => resolve caller (.signal signal) s
    | _ => s
  | .error =>
    match s.phase with
    | .waiting caller (.failed message) =>
      resolve caller (.code 1) { s with printed := s.printed ++ [.spawnError message] }
    | _ => s
  -- Nobody listens to the errors of `child.stdin`.
  | .broken =>
    match s.phase with
    | .waiting _ _ => { s with phase := .exited 1 }
    | _ => s

/-! ### Transparency -/

variable {v}

/-- `main` refuses to start a hook with the text. -/
def isRefused (v : Services) (data : List Char) : Prop :=
  ∃ problems, plan v.parse data = .refuse problems

/-- The wrapper does what it is there for. -/
structure Transparent (v : Services) (s : State) : Prop where
  refused : isRefused v (decode s.stdin) →
    s.started = [] ∧ ∀ code, s.phase = .exited code → code = 1
  started : s.phase ≠ .reading → ¬ isRefused v (decode s.stdin) →
    s.started = [s.stdin] ∨ s.started = [] ∧ 0 < s.tries ∧ ∀ k < s.tries, v.spawn k ≠ .starts
  code : ∀ code, s.phase = .exited code →
    match s.ended with
    | some (.exited hook) => code = hook
    | some (.killed _) => code ≠ 0
    | none => code ≠ 0 ∧ s.started = []
  signals : s.started ≠ [] → s.forwarded = s.received
  blame : ∀ code, .scriptFailed code ∈ s.printed →
    ∃ hook, s.ended = some (.exited hook) ∧ hook ≠ 0 ∧ hook ≠ 130 ∧ hook ≠ 143

/-- A hook starts with the text. -/
def Starts (v : Services) (data : List Char) : Prop :=
  match plan v.parse data with
  | .refuse _ => False
  | .start _ => v.spawn 0 = .starts ∨ (v.spawn 0).isRaising = true ∧ v.spawn 1 = .starts
  | .crash _ => v.spawn 0 = .starts

/-- What happens does not show that there is a wrapper. When a hook starts, no signal has come
before, every chunk of stdin is a text of its own, and there were descriptors for the first child. A
step's hook can be started, and a hook that is running reads what it is given. -/
def Harmless (v : Services) (s : State) : Event → Prop
  | .eof => s.phase = .reading →
      (isRefused v s.data → isRefused v (decode s.stdin)) ∧
      (Starts v s.data → s.received = [] ∧ (∀ chunk ∈ s.chunks, ∃ text, chunk = encode text) ∧
        v.spawn 0 ≠ .withoutPipe)
  | .error => ∀ message, s.phase ≠ .waiting .step (.failed message)
  | .broken => ∀ caller, s.phase ≠ .waiting caller .running
  | _ => True

/-! ### One step -/

/-- What holds between the steps of transparent runs. -/
structure Inv (v : Services) (s : State) : Prop where
  transparent : Transparent v s
  reading : s.phase = .reading → s.started = [] ∧ s.tries = 0 ∧ s.forwarded = [] ∧ s.printed = []
  running : ∀ caller, s.phase = .waiting caller .running → s.started ≠ []
  failed : ∀ caller message, s.phase = .waiting caller (.failed message) → s.started = []
  ended : (∀ code, s.phase ≠ .exited code) → s.ended = none

variable {s : State}

/-- How the hook's end is passed on. -/
theorem exitCodeFor_ne_zero {signal : String} : exitCodeFor (.signal signal) ≠ 0 := by
  rw [exitCodeFor]
  split_ifs <;> decide

/-- A script is blamed only for a code of its own. -/
theorem scriptFailed_mem_resolve {caller : Caller} {result : Result} {code : ℕ}
    (h : .scriptFailed code ∈ (resolve caller result s).printed) :
    .scriptFailed code ∈ s.printed ∨
      caller = .step ∧ result = .code code ∧ code ≠ 0 ∧ code ≠ 130 ∧ code ≠ 143 := by
  simp only [resolve] at h
  rcases List.mem_append.mp h with h | h
  · exact .inl h
  · right
    split_ifs at h with hstep
    · refine ⟨hstep, ?_⟩
      split at h
      · cases List.mem_singleton.mp h
      · cases List.mem_singleton.mp h
      · cases List.mem_singleton.mp h
      · cases h
      · cases List.mem_singleton.mp h
        exact ⟨rfl, by omega, by omega, by omega⟩
    · cases h

/-- What the start of a hook leaves as it is. -/
structure Keeps (s s' : State) : Prop where
  chunks : s'.chunks = s.chunks
  received : s'.received = s.received
  forwarded : s'.forwarded = s.forwarded
  ended : s'.ended = s.ended
  printed : ∀ code, .scriptFailed code ∈ s'.printed → .scriptFailed code ∈ s.printed

theorem keeps_spawned (caller : Caller) (child : Child) : Keeps s (s.spawned caller child) :=
  ⟨rfl, rfl, rfl, rfl, fun _ h => h⟩

theorem keeps_failOpen (message : String) : Keeps s (failOpen v message s) := by
  have hprinted : ∀ code, .scriptFailed code ∈ s.printed ++ [.wrapperError message] →
      .scriptFailed code ∈ s.printed := by
    intro code h
    rcases List.mem_append.mp h with h | h
    · exact h
    · cases List.mem_singleton.mp h
  simp only [failOpen]
  split <;> exact ⟨rfl, rfl, rfl, rfl, hprinted⟩

theorem keeps_spawnReal (caller : Caller) : Keeps s (spawnReal v caller s) := by
  rw [spawnReal]
  split
  · exact keeps_spawned caller .running
  · exact keeps_spawned caller _
  · obtain ⟨h1, h2, h3, h4, h5⟩ := @keeps_failOpen v { s with tries := s.tries + 1 } _
    exact ⟨h1, h2, h3, h4, h5⟩
  · obtain ⟨h1, h2, h3, h4, h5⟩ := @keeps_failOpen v { s with tries := s.tries + 1 }
      "Cannot read properties of undefined (reading 'write')"
    exact ⟨h1, h2, h3, h4, h5⟩

theorem keeps_main : Keeps s (main v s) := by
  rw [main]
  split
  · refine ⟨rfl, rfl, rfl, rfl, fun code h => ?_⟩
    rcases List.mem_append.mp h with h | h
    · exact h
    · cases List.mem_singleton.mp h
  · exact keeps_spawnReal _
  · exact keeps_failOpen _

/-- What `main` comes to: a refusal, a hook that is waited for, one that is not, or none. -/
inductive Begun (v : Services) (s s' : State) : Prop
  | refused (plan : isRefused v s.data) (none : s'.started = []) (tries : s'.tries = 0)
      (exits : s'.phase = .exited 1)
  | running (plan : ¬ isRefused v s.data) (starts : Starts v s.data)
      (pipe : v.spawn 0 ≠ .withoutPipe) (hook : s'.started = [encode s.data])
      (waits : ∃ caller, s'.phase = .waiting caller .running)
  | lost (plan : ¬ isRefused v s.data) (starts : Starts v s.data)
      (pipe : v.spawn 0 = .withoutPipe) (hook : s'.started = [encode s.data])
      (exits : s'.phase = .exited 1)
  | failed (plan : ¬ isRefused v s.data) (starts : ¬ Starts v s.data) (none : s'.started = [])
      (tries : 0 < s'.tries ∧ ∀ k < s'.tries, v.spawn k ≠ .starts)
      (waits : (∃ caller message, s'.phase = .waiting caller (.failed message)) ∨
        s'.phase = .exited 1)

/-- After an error the hook is started once more, or not at all. -/
theorem failOpen_cases (hstarted : s.started = []) (message : String) :
    (v.spawn s.tries = .starts ∧ (failOpen v message s).started = [encode s.data] ∧
      ∃ caller, (failOpen v message s).phase = .waiting caller .running) ∨
    (v.spawn s.tries ≠ .starts ∧ (failOpen v message s).started = [] ∧
      (failOpen v message s).tries = s.tries + 1 ∧
      ((∃ caller message', (failOpen v message s).phase = .waiting caller (.failed message')) ∨
        (failOpen v message s).phase = .exited 1)) := by
  cases hspawn : v.spawn s.tries with
  | starts =>
    simp only [failOpen, hspawn, State.spawned, hstarted, if_true, List.nil_append]
    exact .inl ⟨trivial, rfl, _, rfl⟩
  | fails message' =>
    simp only [failOpen, hspawn, State.spawned, hstarted, reduceCtorEq, if_false]
    exact .inr ⟨by simp, trivial, trivial, .inl ⟨_, _, rfl⟩⟩
  | _ =>
    simp only [failOpen, hspawn, hstarted]
    exact .inr ⟨by simp, trivial, trivial, .inr trivial⟩

theorem begun_main (hstarted : s.started = []) (htries : s.tries = 0) : Begun v s (main v s) := by
  have hone : ∀ n, n = 1 → v.spawn 0 ≠ .starts → 0 < n ∧ ∀ k < n, v.spawn k ≠ .starts := by
    rintro n rfl h0
    exact ⟨Nat.one_pos, fun k hk => Nat.lt_one_iff.mp hk ▸ h0⟩
  have htwo : ∀ n, n = 2 → v.spawn 0 ≠ .starts → v.spawn 1 ≠ .starts →
      0 < n ∧ ∀ k < n, v.spawn k ≠ .starts := by
    rintro n rfl h0 h1
    refine ⟨Nat.two_pos, fun k hk => ?_⟩
    rcases Nat.lt_succ_iff_lt_or_eq.mp hk with hk | rfl
    · exact Nat.lt_one_iff.mp hk ▸ h0
    · exact h1
  cases hplan : plan v.parse s.data with
  | refuse problems =>
    simp only [main, hplan]
    exact .refused ⟨problems, hplan⟩ hstarted htries rfl
  | start caller =>
    have hnot : ¬ isRefused v s.data := fun ⟨_, h⟩ => by rw [hplan] at h; cases h
    have hstarts : Starts v s.data ↔
        v.spawn 0 = .starts ∨ (v.spawn 0).isRaising = true ∧ v.spawn 1 = .starts := by
      rw [Starts, hplan]
    -- The second call, in the state after the first.
    have hsecond := @failOpen_cases v { s with tries := s.tries + 1 } hstarted
    simp only [htries, Nat.zero_add] at hsecond
    cases h0 : v.spawn 0 with
    | starts =>
      simp only [main, hplan, spawnReal, htries, h0, State.spawned, hstarted, if_true,
        List.nil_append]
      exact .running hnot (hstarts.mpr (.inl h0)) (by simp [h0]) rfl ⟨_, rfl⟩
    | fails message =>
      have hno : ¬ Starts v s.data := by simp [hstarts, h0, Spawn.isRaising]
      simp only [main, hplan, spawnReal, htries, h0, State.spawned, hstarted, reduceCtorEq,
        if_false]
      exact .failed hnot hno rfl (hone _ rfl (by simp [h0])) (.inl ⟨_, _, rfl⟩)
    | throws message =>
      simp only [main, hplan, spawnReal, htries, h0]
      rcases hsecond message with ⟨h1, hhook, hwaits⟩ | ⟨h1, hnone, htries', hwaits⟩
      · exact .running hnot (hstarts.mpr (.inr ⟨by rw [h0]; rfl, h1⟩)) (by simp [h0]) hhook hwaits
      · have hno : ¬ Starts v s.data := by simp [hstarts, h0, h1]
        exact .failed hnot hno hnone (htwo _ htries' (by simp [h0]) h1) hwaits
    | withoutPipe =>
      simp only [main, hplan, spawnReal, htries, h0]
      rcases hsecond "Cannot read properties of undefined (reading 'write')" with
        ⟨h1, hhook, -⟩ | ⟨h1, hnone, htries', -⟩
      · exact .lost hnot (hstarts.mpr (.inr ⟨by rw [h0]; rfl, h1⟩)) h0 hhook rfl
      · have hno : ¬ Starts v s.data := by simp [hstarts, h0, h1]
        exact .failed hnot hno hnone (htwo _ htries' (by simp [h0]) h1) (.inr rfl)
  | crash message =>
    have hnot : ¬ isRefused v s.data := fun ⟨_, h⟩ => by rw [hplan] at h; cases h
    have hstarts : Starts v s.data ↔ v.spawn 0 = .starts := by rw [Starts, hplan]
    have hfirst := @failOpen_cases v s hstarted message
    rw [htries] at hfirst
    simp only [main, hplan]
    rcases hfirst with ⟨h0, hhook, hwaits⟩ | ⟨h0, hnone, htries', hwaits⟩
    · exact .running hnot (hstarts.mpr h0) (by simp [h0]) hhook hwaits
    · exact .failed hnot (mt hstarts.mp h0) hnone (hone _ htries' h0) hwaits

/-- A state without a hook. -/
theorem transparent_of_none {s' : State} (hnone : s'.started = [])
    (hexits : ∀ code, s'.phase = .exited code → code = 1) (hended : s'.ended = none)
    (hblame : ∀ code, .scriptFailed code ∉ s'.printed)
    (htries : s'.phase ≠ .reading → ¬ isRefused v (decode s'.stdin) →
      0 < s'.tries ∧ ∀ k < s'.tries, v.spawn k ≠ .starts) : Transparent v s' where
  refused _ := ⟨hnone, hexits⟩
  started hphase hnot := .inr ⟨hnone, htries hphase hnot⟩
  code code hcode := by
    rw [hended]
    exact ⟨by rw [hexits code hcode]; decide, hnone⟩
  signals h := absurd hnone h
  blame code h := absurd h (hblame code)

/-- The end of stdin. -/
theorem transparent_main_iff (h : Inv v s) (hreading : s.phase = .reading) :
    Transparent v (main v s) ↔ Harmless v s .eof := by
  obtain ⟨hstarted, htries, hforwarded, hprinted⟩ := h.reading hreading
  have hended : s.ended = none := h.ended (by simp [hreading])
  have hkeeps := @keeps_main v s
  have hstdin : (main v s).stdin = s.stdin := congrArg List.flatten hkeeps.chunks
  have hblame : ∀ code, .scriptFailed code ∉ (main v s).printed := by
    intro code hcode
    have hcode := hkeeps.printed code hcode
    rw [hprinted] at hcode
    cases hcode
  have hended' : (main v s).ended = none := hkeeps.ended.trans hended
  have hsame : encode s.data = s.stdin ↔ ∀ chunk ∈ s.chunks, ∃ text, chunk = encode text :=
    TextLines.encode_flatMap_decode_iff s.chunks
  simp only [Harmless, hreading, true_imp_iff]
  rcases @begun_main v s hstarted htries with ⟨hplan, hnone, htries', hexits⟩ |
    ⟨hplan, hstarts, hpipe, hhook, caller, hwaits⟩ | ⟨hplan, hstarts, hpipe, hhook, hexits⟩ |
    ⟨hplan, hstarts, hnone, htries', hwaits⟩
  -- `main` has refused.
  · have hstarts : ¬ Starts v s.data := by
      obtain ⟨problems, hplan⟩ := hplan
      simp [Starts, hplan]
    have hexit : (main v s).phase ≠ .reading := by simp [hexits]
    constructor
    · intro htransparent
      refine ⟨fun _ => ?_, fun hs => absurd hs hstarts⟩
      by_contra hnot
      rw [← hstdin] at hnot
      rcases htransparent.started hexit hnot with hone | ⟨-, hpos, -⟩
      · simp [hnone] at hone
      · omega
    · rintro ⟨hrefused, -⟩
      refine transparent_of_none hnone (fun code hcode => ?_) hended' hblame fun _ hnot => ?_
      · rw [hexits] at hcode
        exact (Phase.exited.inj hcode).symm
      · rw [hstdin] at hnot
        exact absurd (hrefused hplan) hnot
  -- The hook is running.
  · have hne : (main v s).started ≠ [] := by simp [hhook]
    have hphase : (main v s).phase ≠ .reading := by simp [hwaits]
    constructor
    · intro htransparent
      have hnot : ¬ isRefused v (decode (main v s).stdin) := fun hrefused =>
        hne (htransparent.refused hrefused).1
      refine ⟨fun hrefused => absurd hrefused hplan, fun _ => ⟨?_, hsame.mp ?_, hpipe⟩⟩
      · rw [← hkeeps.received, ← htransparent.signals hne, hkeeps.forwarded, hforwarded]
      · rcases htransparent.started hphase hnot with hone | ⟨hnone, -⟩
        · rw [hhook, hstdin] at hone
          exact List.singleton_inj.mp hone
        · exact absurd hnone hne
    · rintro ⟨-, hharmless⟩
      obtain ⟨hreceived, htexts, -⟩ := hharmless hstarts
      have hdata := hsame.mpr htexts
      have hnot : ¬ isRefused v (decode (main v s).stdin) := by
        rwa [hstdin, ← hdata, TextLines.decode_encode]
      refine ⟨fun hrefused => absurd hrefused hnot, fun _ _ => .inl ?_, fun code hcode => ?_,
        fun _ => ?_, fun code hcode => absurd hcode (hblame code)⟩
      · rw [hhook, hstdin, hdata]
      · rw [hwaits] at hcode
        cases hcode
      · rw [hkeeps.forwarded, hkeeps.received, hforwarded, hreceived]
  -- The hook is running, but nobody waits for it.
  · refine iff_of_false (fun htransparent => ?_) fun hharmless => ?_
    · have hcode := htransparent.code 1 hexits
      rw [hended'] at hcode
      simp [hhook] at hcode
    · exact (hharmless.2 hstarts).2.2 hpipe
  -- There is no hook.
  · refine iff_of_true (transparent_of_none hnone (fun code hcode => ?_) hended' hblame
      fun _ _ => htries') ⟨fun hrefused => absurd hrefused hplan, fun hs => absurd hs hstarts⟩
    rcases hwaits with ⟨caller, message, hwaits⟩ | hexits
    · rw [hwaits] at hcode
      cases hcode
    · rw [hexits] at hcode
      exact (Phase.exited.inj hcode).symm

theorem inv_main (h : Inv v s) (hreading : s.phase = .reading) (ht : Transparent v (main v s)) :
    Inv v (main v s) := by
  obtain ⟨hstarted, htries, hforwarded, hprinted⟩ := h.reading hreading
  have hended : s.ended = none := h.ended (by simp [hreading])
  have hended' : (main v s).ended = none := keeps_main.ended.trans hended
  refine ⟨ht, ?_, ?_, ?_, fun _ => hended'⟩
  all_goals
    rcases @begun_main v s hstarted htries with ⟨-, hnone, -, hexits⟩ |
      ⟨-, -, -, hhook, caller, hwaits⟩ | ⟨-, -, -, hhook, hexits⟩ |
      ⟨-, -, hnone, -, ⟨caller, message, hwaits⟩ | hexits⟩
  all_goals simp_all

/-- The end of the hook is passed on. -/
theorem transparent_resolve {caller : Caller} (h : Inv v s)
    (hphase : s.phase = .waiting caller .running) {e : End} {result : Result}
    (hresult : ∀ code, e = .exited code → result = .code code)
    (hsignal : ∀ signal, e = .killed signal → result = .signal signal) :
    Transparent v (resolve caller result { s with ended := some e }) := by
  have hne := h.running caller hphase
  have ht := h.transparent
  have hnot : ¬ isRefused v (decode s.stdin) := fun hrefused => hne (ht.refused hrefused).1
  have hended : s.ended = none := h.ended (by simp [hphase])
  refine ⟨fun hrefused => absurd hrefused hnot, fun _ _ => ?_, fun code hcode => ?_, ht.signals,
    fun code hcode => ?_⟩
  · exact ht.started (by simp [hphase]) hnot
  · have hexit : exitCodeFor result = code := Phase.exited.inj hcode
    cases e with
    | exited hook =>
      rw [hresult hook rfl] at hexit
      exact hexit.symm
    | killed signal =>
      rw [hsignal signal rfl] at hexit
      exact hexit ▸ exitCodeFor_ne_zero
  · rcases scriptFailed_mem_resolve hcode with hold | ⟨-, heq, hscript⟩
    · obtain ⟨hook, hhook, -⟩ := ht.blame code hold
      rw [hended] at hhook
      cases hhook
    · cases e with
      | exited hook =>
        rw [hresult hook rfl] at heq
        exact ⟨hook, rfl, Result.code.inj heq ▸ hscript⟩
      | killed signal =>
        rw [hsignal signal rfl] at heq
        cases heq

/-- An error event blames the script just if the hook was one of a step. -/
theorem transparent_failed_iff {caller : Caller} {message : String} (h : Inv v s)
    (hphase : s.phase = .waiting caller (.failed message)) :
    Transparent v (resolve caller (.code 1)
      { s with printed := s.printed ++ [.spawnError message] }) ↔ caller ≠ .step := by
  have hnone := h.failed caller message hphase
  have ht := h.transparent
  have hended : s.ended = none := h.ended (by simp [hphase])
  constructor
  · rintro hafter rfl
    obtain ⟨hook, hhook, -⟩ := hafter.blame 1 (List.mem_append_right _ List.mem_cons_self)
    have hhook : s.ended = some (.exited hook) := hhook
    rw [hended] at hhook
    cases hhook
  · intro hcaller
    refine transparent_of_none hnone (fun code hcode => (Phase.exited.inj hcode).symm) hended
      (fun code hcode => ?_) fun _ hnot => ?_
    · rcases scriptFailed_mem_resolve hcode with hold | ⟨hstep, -⟩
      · rcases List.mem_append.mp hold with hold | hold
        · obtain ⟨hook, hhook, -⟩ := ht.blame code hold
          rw [hended] at hhook
          cases hhook
        · cases List.mem_singleton.mp hold
      · exact hcaller hstep
    · rcases ht.started (by simp [hphase]) hnot with hone | ⟨-, htries⟩
      · simp [hnone] at hone
      · exact htries

/-- An error of the pipe ends the wrapper, which is right just if there is no hook. -/
theorem transparent_broken_iff {caller : Caller} {child : Child} (h : Inv v s)
    (hphase : s.phase = .waiting caller child) :
    Transparent v { s with phase := .exited 1 } ↔ child ≠ .running := by
  have ht := h.transparent
  have hended : s.ended = none := h.ended (by simp [hphase])
  constructor
  · rintro hafter rfl
    have hcode := hafter.code 1 rfl
    simp only [hended] at hcode
    exact h.running caller hphase hcode.2
  · intro hchild
    cases child with
    | running => exact absurd rfl hchild
    | failed message =>
      refine transparent_of_none (h.failed caller message hphase)
        (fun code hcode => (Phase.exited.inj hcode).symm) hended (fun code hcode => ?_)
        fun _ hnot => ?_
      · obtain ⟨hook, hhook, -⟩ := ht.blame code hcode
        rw [hended] at hhook
        cases hhook
      · rcases ht.started (by simp [hphase]) hnot with hone | ⟨-, htries⟩
        · simp [h.failed caller message hphase] at hone
        · exact htries

/-- A signal is passed on if there is a hook. -/
theorem transparent_signal (h : Inv v s) (signal : Signal) :
    Transparent v (step v s (.signal signal)) := by
  have ht := h.transparent
  simp only [step]
  split
  · exact ht
  · exact ⟨ht.refused, ht.started, ht.code,
      fun hne => congrArg (· ++ [signal]) (ht.signals hne), ht.blame⟩
  case h_3 hexited hrunning =>
    refine ⟨ht.refused, ht.started, ht.code, fun hne => ?_, ht.blame⟩
    have hnone : s.started = [] := by
      cases hphase : s.phase with
      | reading => exact (h.reading hphase).1
      | waiting caller child =>
        cases child with
        | running => exact absurd hphase (hrunning caller)
        | failed message => exact h.failed caller message hphase
      | exited code => exact absurd hphase (hexited code)
    exact absurd hnone hne

/-- What comes on stdin does not matter before the end of it. -/
theorem transparent_chunk (h : Inv v s) (octets : List UInt8) :
    Transparent v (step v s (.chunk octets)) := by
  simp only [step]
  split
  case h_1 hreading =>
    have hnone := (h.reading hreading).1
    have hended : s.ended = none := h.ended (by simp [hreading])
    refine transparent_of_none hnone (fun code hcode => ?_) hended (fun code hcode => ?_)
      fun hphase => absurd hreading hphase
    · rw [hreading] at hcode
      cases hcode
    · rw [(h.reading hreading).2.2.2] at hcode
      cases hcode
  case h_2 => exact h.transparent

theorem transparent_step_iff (h : Inv v s) (e : Event) :
    Transparent v (step v s e) ↔ Harmless v s e := by
  cases e with
  | signal signal => exact iff_of_true (transparent_signal h signal) trivial
  | chunk octets => exact iff_of_true (transparent_chunk h octets) trivial
  | eof =>
    by_cases hreading : s.phase = .reading
    · simp only [step, hreading]
      exact transparent_main_iff h hreading
    · refine iff_of_true ?_ fun hphase => absurd hphase hreading
      simp only [step]
      exact h.transparent
  | closed e =>
    refine iff_of_true ?_ trivial
    simp only [step]
    split
    case h_1 caller hphase =>
      cases e with
      | exited code => exact transparent_resolve h hphase (by simp) (by simp)
      | killed signal => exact transparent_resolve h hphase (by simp) (by simp)
    case h_2 => exact h.transparent
  | error =>
    simp only [step]
    split
    case h_1 caller message hphase =>
      rw [transparent_failed_iff h hphase]
      simp [Harmless, hphase]
    case h_2 hnot => exact iff_of_true h.transparent fun message => hnot .step message
  | broken =>
    simp only [step]
    split
    case h_1 caller child hphase =>
      rw [transparent_broken_iff h hphase]
      simp [Harmless, hphase]
    case h_2 hnot => exact iff_of_true h.transparent fun caller => hnot caller .running

theorem inv_of_exited {s' : State} {code : ℕ} (ht : Transparent v s')
    (hexits : s'.phase = .exited code) : Inv v s' :=
  ⟨ht, by simp [hexits], by simp [hexits], by simp [hexits], fun h => absurd hexits (h code)⟩

theorem inv_step (h : Inv v s) (e : Event) (hharmless : Harmless v s e) : Inv v (step v s e) := by
  have ht := (transparent_step_iff h e).mpr hharmless
  cases e with
  | signal signal =>
    simp only [step] at ht ⊢
    split at ht
    case h_1 => exact h
    case h_2 hphase => exact ⟨ht, by simp [hphase], h.running, h.failed, h.ended⟩
    case h_3 => exact ⟨ht, h.reading, h.running, h.failed, h.ended⟩
  | chunk octets =>
    simp only [step] at ht ⊢
    split at ht
    case h_1 => exact ⟨ht, h.reading, h.running, h.failed, h.ended⟩
    case h_2 => exact h
  | eof =>
    simp only [step] at ht ⊢
    split at ht
    case h_1 hreading => exact inv_main h hreading ht
    case h_2 => exact h
  | closed e =>
    simp only [step] at ht ⊢
    split at ht
    case h_1 => cases e <;> exact inv_of_exited ht rfl
    case h_2 => exact h
  | error =>
    simp only [step] at ht ⊢
    split at ht
    case h_1 => exact inv_of_exited ht rfl
    case h_2 => exact h
  | broken =>
    simp only [step] at ht ⊢
    split at ht
    case h_1 => exact inv_of_exited ht rfl
    case h_2 => exact h

/-! ### Runs -/

/-- Nothing has been read. -/
def initial : State := {}

theorem inv_initial : Inv v initial where
  transparent := transparent_of_none rfl (by simp [initial]) rfl (by simp [initial])
    fun h => absurd rfl h
  reading _ := ⟨rfl, rfl, rfl, rfl⟩
  running := by simp [initial]
  failed := by simp [initial]
  ended _ := rfl

/-- The wrapper is transparent in every state of a run just if nothing happens that shows it. -/
theorem transparent_iff (v : Services) (events : List Event) :
    Runs.Along (step v) (fun s e => Transparent v (step v s e)) initial events ↔
      Runs.Along (step v) (Harmless v) initial events :=
  @Runs.Along.iff_of_invariant State Event (step v) (Inv v) (Harmless v) _
    (fun _ e h hharmless => inv_step h e hharmless) (fun _ e h => transparent_step_iff h e)
    initial inv_initial events

/-- The hook of a step cannot be started. -/
def withoutHook : Services where
  parse _ := some (.object [("command".toList, .string "run_script_step".toList)])
  spawn _ := .fails "spawn EAGAIN"

/-- The octets of a step. -/
def scriptStep : List UInt8 :=
  encode "\x7b\"command\":\"run_script_step\"\x7d".toList

/-- The script is blamed for it. -/
theorem not_transparent : ¬ Runs.Along (step withoutHook)
    (fun s e => Transparent withoutHook (step withoutHook s e)) initial
    [.chunk scriptStep, .eof, .error] := by
  rintro ⟨-, -, hafter, -⟩
  obtain ⟨hook, hhook, -⟩ := hafter.blame 1 (List.mem_cons_of_mem _ List.mem_cons_self)
  cases hhook

end CiInfra.Runners.HookWrapper
