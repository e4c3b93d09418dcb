import ZeroCode.Core.Status
import ZeroCode.Core.Language

/-!
# What a sandbox call observes and returns

Process endings as the kernel produces them and as `waitpid` reports them, the raw
outcome the parent of a sandbox assembles, the cgroup readings triage consults, and
the result or error handed to the worker.
-/

namespace ZeroCode.Sandbox

open ZeroCode.Core

/-- How a process ended; the kernel keeps the low eight bits of an exit code. -/
inductive ProcessEnd
  | exited (code : Fin 256)
  | signaled (sig : ℕ)
  deriving DecidableEq, Repr

/-- The end of a process that called `exit`. -/
def ProcessEnd.exit (code : ℕ) : ProcessEnd := .exited (Fin.ofNat 256 code)

/-- The end of a process that exited with 0. -/
abbrev ProcessEnd.success : ProcessEnd := .exited 0

/-- What `waitpid` reports; `other` stands for the stopped, continued and traced states. -/
inductive WaitStatus
  | exited (code : Int)
  | signaled (sig : Int)
  | other
  deriving DecidableEq, Repr

/-- The classical signals have a name; `waitpid` fails with `EINVAL` on a real-time one. -/
def decodableSignal (sig : ℕ) : Bool := 1 ≤ sig && sig ≤ 31

/-- The reply of `waitpid` on a process that ended. -/
def waitpid : ProcessEnd → Option WaitStatus
  | .exited code => some (.exited code.val)
  | .signaled sig => if decodableSignal sig then some (.signaled sig) else none

/-- `waitpid` can report this end of a process. -/
def ProcessEnd.isDecodable : ProcessEnd → Bool
  | .exited _ => true
  | .signaled sig => decodableSignal sig

/-- A decodable end is reported as an exit or a signal. -/
theorem waitpid_of_isDecodable {p : ProcessEnd} (h : p.isDecodable = true) :
    ∃ status, waitpid p = some status ∧ status ≠ .other := by
  cases p with
  | exited code => exact ⟨_, rfl, by simp⟩
  | signaled sig =>
    have hsig : decodableSignal sig = true := h
    exact ⟨_, by rw [waitpid, if_pos hsig], by simp⟩

/-- The errors of a sandbox call, each with its message. -/
inductive SandboxError
  | notImplemented
  | kernelFeatureMissing (msg : String)
  | cgroupSetup (msg : String)
  | seccompSetup (msg : String)
  | landlockSetup (msg : String)
  | mountSetup (msg : String)
  | namespaceSetup (msg : String)
  | spawn (msg : String)
  | wait (msg : String)
  | io (msg : String)
  | internal (msg : String)
  deriving DecidableEq, Repr

/-- Re-running the identical job could plausibly succeed. -/
def SandboxError.isRetryable : SandboxError → Bool
  | .cgroupSetup _ | .mountSetup _ | .namespaceSetup _ | .spawn _ | .wait _ | .io _ | .internal _ => true
  | .notImplemented | .kernelFeatureMissing _ | .seccompSetup _ | .landlockSetup _ => false

/-- The exit code by which the sandbox child reports a failed compile. -/
def compileFailedExitCode : ℕ := 253

/-- The child's outcome from the parent's perspective. -/
structure RawOutcome where
  exitStatus : WaitStatus
  stdout : Bytes
  stderr : Bytes
  compileStderr : Bytes
  compiledBinary : Bytes
  killedByWallTimeout : Bool
  runPhaseMemoryKb : Option ℕ
  compileCpuTime : Option Duration
  compileWallTime : Option Duration
  deriving DecidableEq, Repr

/-- The cgroup files triage reads once the child is gone. -/
structure CgroupReading where
  cpuTime : Duration
  memoryPeakBytes : ℕ
  oomKilled : Bool
  deriving DecidableEq, Repr

/-- What every sandbox returns. -/
structure SandboxResult where
  status : Status
  stdout : Bytes
  stderr : Bytes
  compileOutput : Option Bytes
  exitCode : Option Int
  signal : Option Signal
  cpuTime : Duration
  wallTime : Duration
  compileTime : Duration
  memoryKb : ℕ
  compiledBinary : Option Bytes
  deriving DecidableEq, Repr

end ZeroCode.Sandbox
