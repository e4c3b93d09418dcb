import ZeroCode.Foundation.Template
import ZeroCode.Sandbox.Backends

/-!
# The WebAssembly backend

A module runs in the engine under a clock, a fuel budget and a memory cap. However the call
of its start function fails, the backend gets one error with a text, in which it looks for
two phrases. So a module that exits on its own account is never told from one that failed,
and a cause is recognised exactly when the text says the right thing about it. Lowering the
letters of a text is a parameter.
-/

namespace ZeroCode.Sandbox

open ZeroCode.Core ZeroCode.Foundation

/-- Why the call of the start function failed. -/
inductive TrapCause
  | fuelExhausted
  | memoryDenied
  | trap
  deriving DecidableEq, Repr

/-- How the run of a module ends, each error with its text. An explicit exit ends the call with an error too. -/
inductive WasmRun
  | timeout
  | notInstantiated (text : String)
  | missingStart (text : String)
  | returned
  | exited (code : Int) (chain : String)
  | failed (cause : TrapCause) (chain : String)
  deriving DecidableEq, Repr

/-- What the engine answers before the run, and what the pipes and the clock show after it. -/
structure WasmWorld where
  compile : Except String Unit
  setFuel : Except String Unit
  link : Except String Unit
  stdout : Bytes
  stderr : Bytes
  elapsed : Duration

/-- Turn the error of a call into one of the sandbox. -/
def classifyTrap (lower : String → String) (chain : String) : SandboxError :=
  if chain.contains "all fuel consumed" then .internal "all fuel consumed"
  else if (lower chain).contains "memory" then .internal ("memory limit: " ++ chain)
  else .internal ("wasm trap: " ++ chain)

/-- The result of the future that runs the module, unless it timed out. -/
def WasmRun.result (lower : String → String) : WasmRun → Option (Except SandboxError Unit)
  | .timeout => none
  | .notInstantiated text => some (.error (.internal ("instantiate: " ++ text)))
  | .missingStart text => some (.error (.internal ("missing _start: " ++ text)))
  | .returned => some (.ok ())
  | .exited _ chain | .failed _ chain => some (.error (classifyTrap lower chain))

/-- The exit code that goes with a result and its status. -/
def wasmExitCode : Option (Except SandboxError Unit) → Status → Option Int
  | some (.ok ()), _ => some 0
  | _, .timeLimitExceeded _ => none
  | _, .memoryLimitExceeded => none
  | some (.error _), _ => some 1
  | none, _ => none

/-- Execute a module. -/
def executeWasm (lower : String → String) (w : WasmWorld) (run : WasmRun) : Except SandboxError SandboxResult := do
  w.compile.mapError fun e => .internal ("wasm parse/compile: " ++ e)
  w.setFuel.mapError fun e => .internal ("set_fuel: " ++ e)
  w.link.mapError fun e => .internal ("link wasi: " ++ e)
  let result := run.result lower
  let status := wasmStatus result
  .ok
    { status := status
      stdout := w.stdout
      stderr := w.stderr
      compileOutput := none
      exitCode := wasmExitCode result status
      signal := none
      cpuTime := w.elapsed
      wallTime := w.elapsed
      compileTime := 0
      memoryKb := 0
      compiledBinary := none }

/-- The text speaks of exhausted fuel. -/
def MentionsFuel (chain : String) : Prop := "all fuel consumed".toList <:+: chain.toList

/-- The text speaks of memory, in its own letters or once they are lowered. -/
def MentionsMemory (lower : String → String) (chain : String) : Prop :=
  "memory".toList <:+: (lower chain).toList ∨ "memory".toList <:+: chain.toList

/-- The text tells the cause. -/
def TellsCause (lower : String → String) (chain : String) : TrapCause → Prop
  | .fuelExhausted => MentionsFuel chain
  | .memoryDenied => ¬ MentionsFuel chain ∧ MentionsMemory lower chain
  | .trap => ¬ MentionsFuel chain ∧ ¬ MentionsMemory lower chain

/-- The status says what the cause is. -/
structure JudgesCause (status : Status) (cause : TrapCause) : Prop where
  fuel : status = .timeLimitExceeded .cpu ↔ cause = .fuelExhausted
  memory : status = .memoryLimitExceeded ↔ cause = .memoryDenied
  other : (∃ signal, status = .runtimeError signal) ↔ cause = .trap

/-- What is executed has the status and the exit code of its run. -/
theorem executeWasm_ok {lower : String → String} {w : WasmWorld} {run : WasmRun} {result : SandboxResult}
    (h : executeWasm lower w run = .ok result) :
    result.status = wasmStatus (run.result lower) ∧
      result.exitCode = wasmExitCode (run.result lower) (wasmStatus (run.result lower)) := by
  obtain ⟨_, _, h⟩ := bind_eq_ok_iff.mp h
  obtain ⟨_, _, h⟩ := bind_eq_ok_iff.mp h
  obtain ⟨_, _, h⟩ := bind_eq_ok_iff.mp h
  cases h
  exact ⟨rfl, rfl⟩

/-- The words put in front of a text do not complete a phrase. -/
theorem infix_labelled_iff {phrase label chain : List Char} {first : Char} {others : List Char}
    (hphrase : phrase = first :: others) (hblank : first ≠ ' ') (hcolon : ':' ∉ phrase) (hlabel : ¬ phrase <:+: label) :
    phrase <:+: label ++ ':' :: ' ' :: chain ↔ phrase <:+: chain := by
  have hstart : ¬ phrase <+: ' ' :: chain := by
    rw [hphrase, List.cons_prefix_cons]
    exact fun h => hblank h.1
  rw [infix_append_cons_iff hcolon, List.infix_cons_iff, or_iff_right hlabel, or_iff_right hstart]

/-- Exhausted fuel is never read out of the words put in front. -/
theorem mentionsFuel_labelled_iff (chain : String) :
    (MentionsFuel ("memory limit: " ++ chain) ↔ MentionsFuel chain) ∧
      (MentionsFuel ("wasm trap: " ++ chain) ↔ MentionsFuel chain) := by
  have hphrase : "all fuel consumed".toList = 'a' :: "ll fuel consumed".toList := by decide
  have hlimit : ¬ "all fuel consumed".toList <:+: "memory limit".toList := by decide
  have htrap : ¬ "all fuel consumed".toList <:+: "wasm trap".toList := by decide
  have hcolon : ':' ∉ "all fuel consumed".toList := by decide
  have hlimitLabel : "memory limit: ".toList = "memory limit".toList ++ [':', ' '] := by decide
  have htrapLabel : "wasm trap: ".toList = "wasm trap".toList ++ [':', ' '] := by decide
  simp only [MentionsFuel, String.toList_append, hlimitLabel, htrapLabel, List.append_assoc]
  exact ⟨infix_labelled_iff hphrase (by decide) hcolon hlimit, infix_labelled_iff hphrase (by decide) hcolon htrap⟩

/-- Nor is memory read out of the words in front of a trap. -/
theorem memory_infix_labelled_iff (chain : String) :
    "memory".toList <:+: ("wasm trap: " ++ chain).toList ↔ "memory".toList <:+: chain.toList := by
  have hphrase : "memory".toList = 'm' :: "emory".toList := by decide
  have htrap : ¬ "memory".toList <:+: "wasm trap".toList := by decide
  have htrapLabel : "wasm trap: ".toList = "wasm trap".toList ++ [':', ' '] := by decide
  rw [String.toList_append, htrapLabel, List.append_assoc]
  exact infix_labelled_iff hphrase (by decide) (by decide) htrap

/-- What the status makes of the text of an internal error. -/
theorem wasmStatus_internal (msg : String) :
    wasmStatus (some (.error (.internal msg))) =
      if msg.contains "all fuel consumed" then .timeLimitExceeded .cpu
      else if msg.contains "memory" then .memoryLimitExceeded
      else .runtimeError (.other 0) := rfl

/-- A text that speaks of fuel is taken for exhausted fuel. -/
theorem wasmStatus_of_mentionsFuel (lower : String → String) {chain : String} (hfuel : MentionsFuel chain) :
    wasmStatus (some (.error (classifyTrap lower chain))) = .timeLimitExceeded .cpu := by
  rw [classifyTrap, if_pos (String.contains_string_iff.mpr hfuel), wasmStatus_internal]
  exact if_pos (String.contains_string_iff.mpr List.infix_rfl)

/-- A text that speaks of memory, and not of fuel, is taken for denied memory. -/
theorem wasmStatus_of_mentionsMemory {lower : String → String} {chain : String} (hfuel : ¬ MentionsFuel chain)
    (hmemory : MentionsMemory lower chain) :
    wasmStatus (some (.error (classifyTrap lower chain))) = .memoryLimitExceeded := by
  have hlabelled := mentionsFuel_labelled_iff chain
  rw [classifyTrap, if_neg (mt String.contains_string_iff.mp hfuel)]
  split
  · have hmsg : "memory".toList <:+: ("memory limit: " ++ chain).toList := by
      rw [String.toList_append]
      exact List.IsInfix.trans (by decide : "memory".toList <:+: "memory limit: ".toList) (List.prefix_append _ _).isInfix
    rw [wasmStatus_internal, if_neg (mt String.contains_string_iff.mp (mt hlabelled.1.mp hfuel)),
      if_pos (String.contains_string_iff.mpr hmsg)]
  · rename_i hlower
    have hchain : "memory".toList <:+: chain.toList := hmemory.resolve_left (mt String.contains_string_iff.mpr hlower)
    rw [wasmStatus_internal, if_neg (mt String.contains_string_iff.mp (mt hlabelled.2.mp hfuel)),
      if_pos (String.contains_string_iff.mpr ((memory_infix_labelled_iff chain).mpr hchain))]

/-- Any other text is taken for a crash. -/
theorem wasmStatus_of_not_mentions {lower : String → String} {chain : String} (hfuel : ¬ MentionsFuel chain)
    (hmemory : ¬ MentionsMemory lower chain) :
    wasmStatus (some (.error (classifyTrap lower chain))) = .runtimeError (.other 0) := by
  obtain ⟨hlower, hchain⟩ := not_or.mp hmemory
  have hlabelled := mentionsFuel_labelled_iff chain
  rw [classifyTrap, if_neg (mt String.contains_string_iff.mp hfuel), if_neg (mt String.contains_string_iff.mp hlower),
    wasmStatus_internal, if_neg (mt String.contains_string_iff.mp (mt hlabelled.2.mp hfuel)),
    if_neg (mt String.contains_string_iff.mp (mt (memory_infix_labelled_iff chain).mp hchain))]

/-- The cause each status of a failed call stands for. -/
theorem judgesCause_iff (cause : TrapCause) (signal : Signal) :
    (JudgesCause (.timeLimitExceeded .cpu) cause ↔ cause = .fuelExhausted) ∧
      (JudgesCause .memoryLimitExceeded cause ↔ cause = .memoryDenied) ∧
      (JudgesCause (.runtimeError signal) cause ↔ cause = .trap) := by
  refine ⟨⟨fun h => h.fuel.mp rfl, ?_⟩, ⟨fun h => h.memory.mp rfl, ?_⟩, ⟨fun h => h.other.mp ⟨signal, rfl⟩, ?_⟩⟩
  all_goals
    rintro rfl
    constructor <;> simp

/-- The status of a failed call says what its cause is exactly when its text tells the cause. -/
theorem executeWasm_judgesCause_iff {lower : String → String} {w : WasmWorld} {cause : TrapCause} {chain : String}
    {result : SandboxResult} (h : executeWasm lower w (.failed cause chain) = .ok result) :
    JudgesCause result.status cause ↔ TellsCause lower chain cause := by
  obtain ⟨hcpu, hdenied, hcrash⟩ := judgesCause_iff cause (.other 0)
  rw [(executeWasm_ok h).1, WasmRun.result]
  by_cases hfuel : MentionsFuel chain
  · rw [wasmStatus_of_mentionsFuel lower hfuel, hcpu]
    cases cause <;> simp [TellsCause, hfuel]
  · by_cases hmemory : MentionsMemory lower chain
    · rw [wasmStatus_of_mentionsMemory hfuel hmemory, hdenied]
      cases cause <;> simp [TellsCause, hfuel, hmemory]
    · rw [wasmStatus_of_not_mentions hfuel hmemory, hcrash]
      cases cause <;> simp [TellsCause, hfuel, hmemory]

/-- An engine that accepts the module. -/
def quietWasm : WasmWorld := ⟨.ok (), .ok (), .ok (), [], [], 0⟩

/-- Lower the letters of ASCII. -/
def lowerAscii (text : String) : String := text.map Char.toLower

/-- A division by zero is a crash. -/
theorem executeWasm_judgesCause_iff_division :
    ∃ result, executeWasm lowerAscii quietWasm (.failed .trap "wasm trap: integer divide by zero") = .ok result ∧
      JudgesCause result.status .trap := by
  have hexecutes : executeWasm lowerAscii quietWasm (.failed .trap "wasm trap: integer divide by zero") = .ok _ := rfl
  refine ⟨_, hexecutes, (executeWasm_judgesCause_iff hexecutes).mpr ⟨?_, ?_⟩⟩
  · unfold MentionsFuel
    decide +kernel
  · unfold MentionsMemory
    decide +kernel

/-- An access outside the memory is a crash, and counts as denied memory. -/
theorem out_of_bounds_denied :
    ∃ result, executeWasm lowerAscii quietWasm (.failed .trap "wasm trap: out of bounds memory access") = .ok result ∧
      result.status = .memoryLimitExceeded ∧ ¬ JudgesCause result.status .trap := by
  have hfuel : ¬ MentionsFuel "wasm trap: out of bounds memory access" := by
    unfold MentionsFuel
    decide +kernel
  have hmemory : MentionsMemory lowerAscii "wasm trap: out of bounds memory access" := Or.inr (by decide +kernel)
  have hstatus := wasmStatus_of_mentionsMemory hfuel hmemory
  refine ⟨_, rfl, hstatus, fun hjudges => ?_⟩
  have hdenied : JudgesCause .memoryLimitExceeded .trap := hstatus ▸ hjudges
  cases (judgesCause_iff .trap (.other 0)).2.1.mp hdenied

/-- An explicit exit is judged the way native triage judges one within the limits. -/
structure JudgedLikeNative (result : SandboxResult) (code : Int) : Prop where
  status : result.status = (exitVerdict (.exited code)).1
  exitCode : result.exitCode = (exitVerdict (.exited code)).2.2

/-- Native triage accepts an exit with zero and reports any other one with its code. -/
theorem judgedLikeNative_iff (result : SandboxResult) (code : Int) :
    JudgedLikeNative result code ↔
      (result.status = if code = 0 then .accepted else .nonZeroExit code) ∧ result.exitCode = some code := by
  constructor
  · intro h
    rw [h.status, h.exitCode]
    by_cases hzero : code = 0 <;> simp [exitVerdict, hzero]
  · rintro ⟨hstatus, hcode⟩
    refine ⟨?_, ?_⟩
    · rw [hstatus]
      by_cases hzero : code = 0 <;> simp [exitVerdict, hzero]
    · rw [hcode]
      by_cases hzero : code = 0 <;> simp [exitVerdict, hzero]

/-- A failed call is a time limit, a memory limit or a crash. -/
theorem wasmStatus_classifyTrap_cases (lower : String → String) (chain : String) :
    wasmStatus (some (.error (classifyTrap lower chain))) = .timeLimitExceeded .cpu ∨
      wasmStatus (some (.error (classifyTrap lower chain))) = .memoryLimitExceeded ∨
        wasmStatus (some (.error (classifyTrap lower chain))) = .runtimeError (.other 0) := by
  by_cases hfuel : MentionsFuel chain
  · exact Or.inl (wasmStatus_of_mentionsFuel lower hfuel)
  · by_cases hmemory : MentionsMemory lower chain
    · exact Or.inr (Or.inl (wasmStatus_of_mentionsMemory hfuel hmemory))
    · exact Or.inr (Or.inr (wasmStatus_of_not_mentions hfuel hmemory))

/-- No explicit exit of a module is judged the way a native one is, whatever its code. -/
theorem executeWasm_exited_not_native (lower : String → String) (w : WasmWorld) (code : Int) (chain : String) :
    ¬ ∃ result, executeWasm lower w (.exited code chain) = .ok result ∧ JudgedLikeNative result code := by
  rintro ⟨result, hresult, hnative⟩
  have hstatus := ((judgedLikeNative_iff result code).mp hnative).1
  rw [(executeWasm_ok hresult).1, WasmRun.result] at hstatus
  rcases wasmStatus_classifyTrap_cases lower chain with h | h | h
  all_goals
    rw [h] at hstatus
    split at hstatus <;> cases hstatus

/-- A module that exits with zero is a crash with exit code one. -/
theorem exit_zero_crashes :
    ∃ result, executeWasm lowerAscii quietWasm (.exited 0 "Exited with i32 exit status 0") = .ok result ∧
      result.status = .runtimeError (.other 0) ∧ result.exitCode = some 1 := by
  have hfuel : ¬ MentionsFuel "Exited with i32 exit status 0" := by
    unfold MentionsFuel
    decide +kernel
  have hmemory : ¬ MentionsMemory lowerAscii "Exited with i32 exit status 0" := by
    unfold MentionsMemory
    decide +kernel
  have hstatus := wasmStatus_of_not_mentions hfuel hmemory
  refine ⟨_, rfl, hstatus, ?_⟩
  simp only [WasmRun.result, hstatus]
  rfl

end ZeroCode.Sandbox
