import ZeroCode.Foundation.Fallible
import ZeroCode.Sandbox.Child
import ZeroCode.Sandbox.Triage

/-!
# One sandbox call, end to end

`execute` creates the scratch directory and the cgroup, lets `run` fork the child and
collect its outcome, and hands the outcome to triage. A `World` gives the reply of
every call the parent makes and everything the child meets. The parent's own failures
become errors; what goes wrong behind the fork only comes back as an exit status.
-/

namespace ZeroCode.Sandbox

open ZeroCode.Core ZeroCode.Foundation

/-- The eight pipes of one job, in the order they are created. -/
inductive PipeName
  | stdout
  | stderr
  | compile
  | ready
  | start
  | artifact
  | phase
  | proceed
  deriving DecidableEq, Repr

/-- The name of a pipe in an error message. -/
def PipeName.label : PipeName → String
  | .stdout => "stdout"
  | .stderr => "stderr"
  | .compile => "compile"
  | .ready => "ready"
  | .start => "start"
  | .artifact => "artifact"
  | .phase => "phase"
  | .proceed => "proceed"

/-- All pipes, in creation order. -/
def PipeName.all : List PipeName := [.stdout, .stderr, .compile, .ready, .start, .artifact, .phase, .proceed]

/-- The threads the parent joins for captured bytes, in join order. -/
inductive Reader
  | stdout
  | stderr
  | compileStderr
  | artifact
  deriving DecidableEq, Repr

/-- All reader threads, in join order. -/
def Reader.all : List Reader := [.stdout, .stderr, .compileStderr, .artifact]

/-- The error for a panicked reader thread. -/
def Reader.panicked : Reader → SandboxError
  | .stdout => .internal "stdout reader panicked"
  | .stderr => .internal "stderr reader panicked"
  | .compileStderr => .internal "compile stderr reader panicked"
  | .artifact => .internal "artifact reader panicked"

/-- How the parent's wait ends: a poll finds the child gone, the deadline passes and the
killed child is reaped, the status was reaped by someone else, or a poll fails. -/
inductive WaitEvent
  | polled
  | deadline (killed : ProcessEnd) (barrierFired : Bool)
  | echild
  | pollError (e : String)
  deriving DecidableEq, Repr

/-- The replies of the parent's calls and the behaviour behind the fork. -/
structure World where
  child : ChildWorld
  scratchCreate : Except SandboxError Unit
  staleCachedProg : Bool
  cgroupCreate : Except SandboxError Unit
  pipeFails : PipeName → Option String
  forkFails : Option String
  readyReadFails : Option String
  attach : Except SandboxError Unit
  wait : WaitEvent
  joinPanics : Reader → Bool
  stdout : Bytes
  stderr : Bytes
  compileStderr : Bytes
  compiledBinary : Bytes
  compileCpu : Duration
  compileWall : Duration
  runMemoryKb : ℕ
  reading : CgroupReading
  wallElapsed : Duration

/-- What the worker hands to a sandbox to run. -/
structure SandboxJob where
  token : Token
  language : LanguageSpec
  sourceCode : Bytes
  stdin : Bytes
  limits : ResourceLimits
  cachedBinary : Option Bytes
  deriving DecidableEq, Repr

/-- A world in which every call of the parent succeeds and the child is polled to its end. -/
def World.ordinary (child : ChildWorld) : World where
  child := child
  scratchCreate := .ok ()
  staleCachedProg := false
  cgroupCreate := .ok ()
  pipeFails := fun _ => none
  forkFails := none
  readyReadFails := none
  attach := .ok ()
  wait := .polled
  joinPanics := fun _ => false
  stdout := []
  stderr := []
  compileStderr := []
  compiledBinary := []
  compileCpu := 0
  compileWall := 0
  runMemoryKb := 0
  reading := ⟨0, 0, false⟩
  wallElapsed := 0

/-- A job of an interpreted language that runs the given command. -/
def SandboxJob.interpreted (runCmd : List String) : SandboxJob where
  token := 0
  language := ⟨71, "main.py", none, runCmd, [], none, none⟩
  sourceCode := []
  stdin := []
  limits := .default
  cachedBinary := none

/-- A call of the parent that fails with an operating-system error. -/
def parentCall (fails : Option String) (error : String → SandboxError) : Except SandboxError Unit :=
  match fails with
  | some e => .error (error e)
  | none => .ok ()

/-- Wait for the child, reporting its status and whether it was killed for its wall budget. -/
def waitWithTimeout (ending : ProcessEnd) : WaitEvent → Except SandboxError (WaitStatus × Bool)
  | .polled =>
    match waitpid ending with
    | some status => .ok (status, false)
    | none => .error (.wait "waitpid: EINVAL")
  | .deadline killed _ =>
    match waitpid killed with
    | some status => .ok (status, true)
    | none => .error (.wait "post-kill wait: EINVAL")
  | .echild => .error (.wait "the child's exit status was reaped by another waiter in this process")
  | .pollError e => .error (.wait ("waitpid: " ++ e))

/-- The compile→run barrier fired: the child passed it, and was not killed before. -/
def barrierFired (trace : Option ChildTrace) (event : WaitEvent) : Bool :=
  match trace with
  | none => false
  | some trace => trace.barrier && match event with
    | .deadline _ fired => fired
    | _ => true

/-- What happens behind the fork of a job. -/
def forkedChild (w : World) (spec : LanguageSpec) (limits : ResourceLimits) (hasCachedBinary : Bool) :
    ProcessEnd × Option ChildTrace :=
  runChild w.child (buildCompileArgv spec limits) (buildArgv spec limits) hasCachedBinary

/-- Fork the child, drive the handshake, wait for it and collect what it left. -/
def run (w : World) (spec : LanguageSpec) (limits : ResourceLimits) (hasCachedBinary : Bool) :
    Except SandboxError RawOutcome := do
  forM PipeName.all fun p => parentCall (w.pipeFails p) fun e => .spawn ("pipe " ++ p.label ++ ": " ++ e)
  parentCall w.forkFails fun e => .spawn ("fork: " ++ e)
  let (ending, trace) := forkedChild w spec limits hasCachedBinary
  parentCall w.readyReadFails fun e => .spawn ("read ready signal: " ++ e)
  -- a failed `write_maps` is logged and the handshake goes on
  w.attach
  let fired := barrierFired trace w.wait
  let (status, killedByWallTimeout) ← waitWithTimeout ending w.wait
  forM Reader.all fun r => if w.joinPanics r then .error r.panicked else .ok ()
  let kb := w.runMemoryKb % 2 ^ 32
  return {
    exitStatus := status
    stdout := w.stdout
    stderr := w.stderr
    compileStderr := w.compileStderr
    compiledBinary := w.compiledBinary
    killedByWallTimeout := killedByWallTimeout
    runPhaseMemoryKb := if fired && 0 < kb then some kb else none
    compileCpuTime := if fired then some w.compileCpu else none
    compileWallTime := if fired then some w.compileWall else none }

/-- The scratch directory holds a cached artifact for the child. -/
def hasCachedBinary (w : World) (job : SandboxJob) : Bool := job.cachedBinary.isSome || w.staleCachedProg

/-- Execute one job in a fresh sandbox. -/
def execute (w : World) (job : SandboxJob) : Except SandboxError SandboxResult := do
  w.scratchCreate
  let cached := hasCachedBinary w job
  w.cgroupCreate
  let raw ← run w job.language job.limits cached
  let compiledBinary :=
    if !cached && job.language.compileCmd.isSome && !raw.compiledBinary.isEmpty then
      some raw.compiledBinary
    else none
  let result ← classify raw w.reading (Duration.fromSecs job.limits.cpuTime) w.wallElapsed
  return { result with
    compiledBinary := compiledBinary
    memoryKb := raw.runPhaseMemoryKb.getD result.memoryKb }

/-- The status a wait reports is an exit or a signal. -/
theorem waitWithTimeout_ended {ending : ProcessEnd} {event : WaitEvent} {status : WaitStatus}
    {killed : Bool} (h : waitWithTimeout ending event = .ok (status, killed)) : status ≠ .other := by
  have ended (p : ProcessEnd) (hp : waitpid p = some status) : status ≠ .other := by
    cases p with
    | exited code => cases hp; simp
    | signaled sig =>
      simp only [waitpid] at hp
      split at hp <;> cases hp
      simp
  cases event with
  | polled =>
    simp only [waitWithTimeout] at h
    split at h
    · cases h
      exact ended _ ‹_›
    · cases h
  | deadline after fired =>
    simp only [waitWithTimeout] at h
    split at h
    · cases h
      exact ended _ ‹_›
    · cases h
  | echild => cases h
  | pollError e => cases h

/-- A collected outcome carries the status the wait reported. -/
theorem run_ok {w : World} {spec : LanguageSpec} {limits : ResourceLimits} {cached : Bool}
    {raw : RawOutcome} (h : run w spec limits cached = .ok raw) :
    waitWithTimeout (forkedChild w spec limits cached).1 w.wait =
      .ok (raw.exitStatus, raw.killedByWallTimeout) := by
  unfold run at h
  obtain ⟨_, _, h⟩ := bind_eq_ok_iff.mp h
  obtain ⟨_, _, h⟩ := bind_eq_ok_iff.mp h
  obtain ⟨_, _, h⟩ := bind_eq_ok_iff.mp h
  obtain ⟨_, _, h⟩ := bind_eq_ok_iff.mp h
  obtain ⟨⟨status, killed⟩, hwait, h⟩ := bind_eq_ok_iff.mp h
  obtain ⟨_, _, h⟩ := bind_eq_ok_iff.mp h
  cases h
  exact hwait

/-- A result carries the status triage gave the collected outcome. -/
theorem execute_ok {w : World} {job : SandboxJob} {result : SandboxResult}
    (h : execute w job = .ok result) :
    ∃ raw, run w job.language job.limits (hasCachedBinary w job) = .ok raw ∧
      result.status = classifyStatus raw w.reading (Duration.fromSecs job.limits.cpuTime) := by
  unfold execute at h
  obtain ⟨_, _, h⟩ := bind_eq_ok_iff.mp h
  obtain ⟨_, _, h⟩ := bind_eq_ok_iff.mp h
  obtain ⟨raw, hraw, h⟩ := bind_eq_ok_iff.mp h
  obtain ⟨triaged, htriaged, h⟩ := bind_eq_ok_iff.mp h
  obtain ⟨result', hresult', hstatus, _⟩ :=
    classify_spec raw w.reading (Duration.fromSecs job.limits.cpuTime) w.wallElapsed
  rw [hresult'] at htriaged
  cases htriaged
  cases h
  exact ⟨raw, hraw, hstatus⟩

/-- Every result handed to the worker is a judgement about the code. -/
theorem execute_isVerdict {w : World} {job : SandboxJob} {result : SandboxResult}
    (h : execute w job = .ok result) : result.status.isVerdict = true := by
  obtain ⟨raw, hraw, hstatus⟩ := execute_ok h
  rw [hstatus]
  exact classifyStatus_isVerdict (waitWithTimeout_ended (run_ok hraw)) _ _

end ZeroCode.Sandbox
