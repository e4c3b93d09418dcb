import ZeroCode.Sandbox.Execute

/-!
# The backends of a sandbox

Three backends hand results to the worker: the native one, the plumbing one that runs
without isolation, and the one for WebAssembly. Whichever it is, the status of a result is
a judgement about the submitted code.
-/

namespace ZeroCode.Sandbox

open ZeroCode.Core

/-- How a job of the plumbing backend ends; a process killed by a signal has no exit code. -/
inductive NaiveEnd
  | compileTimeout
  | compileFailed
  | runTimeout
  | ran (success : Bool) (code : Option Int)
  deriving DecidableEq, Repr

/-- The status of the plumbing backend. -/
def naiveStatus : NaiveEnd → Status
  | .compileTimeout => .timeLimitExceeded .wall
  | .compileFailed => .compileError
  | .runTimeout => .timeLimitExceeded .wall
  | .ran true _ => .accepted
  | .ran false (some code) => .nonZeroExit code
  | .ran false none => .runtimeError .sigkill

/-- The status of the WebAssembly backend, given what the call of the start function returned, if it
returned in time. -/
def wasmStatus : Option (Except SandboxError Unit) → Status
  | none => .timeLimitExceeded .wall
  | some (.error (.internal msg)) =>
    if msg.contains "all fuel consumed" then .timeLimitExceeded .cpu
    else if msg.contains "memory" then .memoryLimitExceeded
    else .runtimeError (.other 0)
  | some (.error _) => .runtimeError (.other 0)
  | some (.ok ()) => .accepted

/-- Some backend returns this result. -/
inductive Returned (result : SandboxResult) : Prop
  | native (w : World) (job : SandboxJob) (h : execute w job = .ok result)
  | naive (ending : NaiveEnd) (h : result.status = naiveStatus ending)
  | wasm (outcome : Option (Except SandboxError Unit)) (h : result.status = wasmStatus outcome)

/-- The plumbing backend judges the code. -/
theorem naiveStatus_isVerdict (ending : NaiveEnd) : (naiveStatus ending).isVerdict = true := by
  cases ending with
  | compileTimeout => rfl
  | compileFailed => rfl
  | runTimeout => rfl
  | ran success code =>
    cases success
    · cases code <;> rfl
    · rfl

/-- The WebAssembly backend judges the code. -/
theorem wasmStatus_isVerdict (outcome : Option (Except SandboxError Unit)) :
    (wasmStatus outcome).isVerdict = true := by
  unfold wasmStatus
  split
  · rfl
  · split
    · rfl
    · split <;> rfl
  · rfl
  · rfl

/-- Whatever a backend returns is a judgement about the code. -/
theorem Returned.isVerdict {result : SandboxResult} (h : Returned result) : result.status.isVerdict = true := by
  cases h with
  | native w job h => exact execute_isVerdict h
  | naive ending h =>
    rw [h]
    exact naiveStatus_isVerdict ending
  | wasm outcome h =>
    rw [h]
    exact wasmStatus_isVerdict outcome

end ZeroCode.Sandbox
