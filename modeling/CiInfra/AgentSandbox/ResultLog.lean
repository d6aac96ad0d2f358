import CiInfra.AgentSandbox.Dispatcher
import CiInfra.Lib.TextLines

/-!
# The log of a task

The result of a task is the last object that its pod has printed. Of the pod's log no more is read
than the limit on responses, from its beginning, so that the result of a task that prints more than
this is lost, and an object that has been printed before takes its place. What `json.loads` makes of
a line is open.
-/

namespace CiInfra.AgentSandbox

open TextLines

/-- `MAX_LOG_BYTES`. -/
def maxLogBytes : ℕ := 1024 * 1024

section

variable {Value : Type} (loads : List Char → Option Value)

/-- The object on a line, if there is one. -/
def lineObject (line : List Char) : Option Value :=
  if (strip line).head? = some '{' then loads (strip line) else none

/-- The text that `api_request` returns of a response when it is `raw`. -/
def rawText (payload : List UInt8) : List Char := decode (payload.take maxLogBytes)

/-- `task_result`, by the names of the Job's pods and the logs of the pods. -/
def taskResult (taskId : String) (pods : Except Raised (List String))
    (log : String → Except Raised (List UInt8)) : Except Raised Value :=
  match pods with
  | .error e => .error e
  | .ok items =>
    match items.getLast? with
    | none => .error (.api s!"no pod found for sandbox-task-{taskId}")
    | some name =>
      match log name with
      | .error e => .error e
      | .ok payload =>
        match (splitLines (rawText payload)).reverse.findSome? (lineObject loads) with
        | some result => .ok result
        | none => .error (.api s!"sandbox-task-{taskId} printed no result JSON")

/-- The objects on lines. -/
def objects (lines : List (List Char)) : List Value := lines.filterMap (lineObject loads)

/-- The last object on the lines of a log. -/
def lastObject (payload : List UInt8) : Option Value :=
  (objects loads (splitLines (decode payload))).getLast?

/-- How many lines are complete before the limit. -/
def completeLines (payload : List UInt8) : ℕ := (splitLines (rawText payload)).length - 1

/-- The limit spares the last object: there is none from the line on that the limit cuts, nor does
the cut make one of that line; or else, by chance, what is found is the same as the last one, on an
earlier line or on what is left of the line. -/
def LimitSpares (payload : List UInt8) : Prop :=
  let before := objects loads ((splitLines (decode payload)).take (completeLines payload))
  let split := objects loads ((splitLines (rawText payload)).drop (completeLines payload))
  let after := objects loads ((splitLines (decode payload)).drop (completeLines payload))
  (split = [] ∧ after = []) ∨ (split = [] ∧ before.getLast? = after.getLast?) ∨
    (split ≠ [] ∧ split.getLast? = (before ++ after).getLast?)

end

variable {Value : Type} {loads : List Char → Option Value} {payload : List UInt8}

/-- The complete lines are lines of the whole log. -/
theorem take_completeLines (payload : List UInt8) :
    (splitLines (rawText payload)).take (completeLines payload) =
      (splitLines (decode payload)).take (completeLines payload) := by
  have hpre : (splitLines (rawText payload)).take (completeLines payload) <+:
      splitLines (decode payload) := by
    rw [completeLines, ← List.dropLast_eq_take]
    exact dropLast_splitLines_decode_take_isPrefix maxLogBytes payload
  have hlength : ((splitLines (rawText payload)).take (completeLines payload)).length =
      completeLines payload := by
    rw [List.length_take, completeLines]
    omega
  have htake := List.prefix_iff_eq_take.mp hpre
  rwa [hlength] at htake

theorem findSome?_reverse (lines : List (List Char)) :
    lines.reverse.findSome? (lineObject loads) = (objects loads lines).getLast? := by
  rw [objects, ← List.head?_reverse, ← List.filterMap_reverse, List.head?_filterMap]

theorem objects_append (lines lines' : List (List Char)) :
    objects loads (lines ++ lines') = objects loads lines ++ objects loads lines' :=
  List.filterMap_append

/-- What is found is the last object before the cut. -/
theorem taskResult_eq_ok_iff {taskId name : String} {items : List String}
    {log : String → Except Raised (List UInt8)} {result : Value} (hlog : log name = .ok payload) :
    taskResult loads taskId (.ok (items ++ [name])) log = .ok result ↔
      (objects loads (splitLines (rawText payload))).getLast? = some result := by
  simp only [taskResult, List.getLast?_concat, hlog, findSome?_reverse]
  split <;> simp [*]

/-- A log that is no longer than the limit is spared. -/
theorem limitSpares_of_length_le (h : payload.length ≤ maxLogBytes) :
    LimitSpares loads payload := by
  have hraw : rawText payload = decode payload := by rw [rawText, List.take_of_length_le h]
  simp only [LimitSpares, hraw]
  by_cases hsplit : objects loads ((splitLines (decode payload)).drop (completeLines payload)) = []
  · exact Or.inl ⟨hsplit, hsplit⟩
  · refine Or.inr (Or.inr ⟨hsplit, ?_⟩)
    rw [List.getLast?_append_of_ne_nil _ hsplit]

/-- Two lists that begin alike end alike if neither goes on, or by chance. -/
theorem getLast?_append_eq_iff {before split after : List Value} :
    (before ++ split).getLast? = (before ++ after).getLast? ↔
      (split = [] ∧ after = []) ∨ (split = [] ∧ before.getLast? = after.getLast?) ∨
        (split ≠ [] ∧ split.getLast? = (before ++ after).getLast?) := by
  by_cases hsplit : split = []
  · subst hsplit
    by_cases hafter : after = []
    · simp [hafter]
    · simp [hafter, List.getLast?_append_of_ne_nil _ hafter]
  · simp [hsplit, List.getLast?_append_of_ne_nil _ hsplit]

/-- The octets of characters of ASCII. -/
def ascii (s : String) : List UInt8 := s.toList.map fun c => UInt8.ofNat c.toNat

/-- A line that a tool has printed. -/
def progressLine : String := "\x7b\"stage\": \"clone\"\x7d"

/-- The line of a result. -/
def resultLine : String := "\x7b\"errors\": \x7b\x7d\x7d"

/-- What the two lines are parsed as. -/
def loadsEither (text : List Char) : Option String :=
  if text = progressLine.toList then some progressLine
  else if text = resultLine.toList then some resultLine
  else none

/-- The two lines, with as many newlines between them as the limit has octets. -/
def longLog : List UInt8 := ascii progressLine ++ List.replicate maxLogBytes 10 ++ ascii resultLine

theorem objects_newlines {line : List Char} (hline : ∀ c ∈ line, isBreak c = false) (n : ℕ)
    (t : List Char) :
    objects loads (splitLines (line ++ (List.replicate (n + 1) '\n' ++ t))) =
      objects loads [line] ++ objects loads (splitLines t) := by
  have hempty : objects loads (List.replicate n []) = [] := by
    rw [objects, List.filterMap_eq_nil_iff]
    intro line hline
    rw [List.eq_of_mem_replicate hline]
    rfl
  have hlines : splitLines (line ++ (List.replicate (n + 1) '\n' ++ t)) =
      [line] ++ (List.replicate n [] ++ splitLines t) := by
    rw [splitLines, linesFrom_append hline, linesFrom_newlines]
    rfl
  rw [hlines, objects_append, objects_append, hempty, List.nil_append]

theorem toNat_lt_of_mem_longLog : ∀ b ∈ longLog, b.toNat < 0x80 := by
  have hprogress : ∀ b ∈ ascii progressLine, b.toNat < 0x80 := by decide +kernel
  have hresult : ∀ b ∈ ascii resultLine, b.toNat < 0x80 := by decide +kernel
  intro b hb
  simp only [longLog, List.mem_append] at hb
  rcases hb with (hb | hb) | hb
  · exact hprogress b hb
  · rw [List.eq_of_mem_replicate hb]
    decide
  · exact hresult b hb

theorem decode_longLog :
    decode longLog = progressLine.toList ++
      (List.replicate (maxLogBytes - 1 + 1) '\n' ++ resultLine.toList) := by
  have hprogress : (ascii progressLine).map (fun b => Char.ofNat b.toNat) =
      progressLine.toList := by decide +kernel
  have hresult : (ascii resultLine).map (fun b => Char.ofNat b.toNat) =
      resultLine.toList := by decide +kernel
  rw [decode_ascii toNat_lt_of_mem_longLog, longLog, List.map_append, List.map_append,
    hprogress, hresult, List.map_replicate, List.append_assoc]
  rfl

theorem rawText_longLog :
    rawText longLog = progressLine.toList ++
      (List.replicate (maxLogBytes - (ascii progressLine).length - 1 + 1) '\n' ++ []) := by
  have hprogress : (ascii progressLine).map (fun b => Char.ofNat b.toNat) =
      progressLine.toList := by decide +kernel
  have hle : (ascii progressLine).length + 1 ≤ maxLogBytes := by decide +kernel
  have htake : longLog.take maxLogBytes = ascii progressLine ++
      List.replicate (maxLogBytes - (ascii progressLine).length - 1 + 1) 10 := by
    have hmin : min (maxLogBytes - (ascii progressLine).length) maxLogBytes =
        maxLogBytes - (ascii progressLine).length - 1 + 1 := by omega
    have hzero : maxLogBytes - (ascii progressLine).length - maxLogBytes = 0 := by omega
    rw [longLog, List.append_assoc, List.take_append, List.take_append, List.take_replicate,
      List.take_of_length_le (by omega), List.length_replicate, hmin, hzero, List.take_zero,
      List.append_nil]
  rw [rawText, decode_ascii fun b hb => toNat_lt_of_mem_longLog b (List.mem_of_mem_take hb),
    htake, List.map_append, hprogress, List.map_replicate, List.append_nil]
  rfl

end CiInfra.AgentSandbox
