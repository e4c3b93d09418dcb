import ZeroCode.Foundation.Transition
import ZeroCode.Sandbox.Capture
import ZeroCode.Sandbox.Descriptors
import ZeroCode.Sandbox.RunVerdict

/-!
# The two phases of a job, step by step

PID 1 sets the sandbox up, lets the compile sub-child run, packs and sends the artifact,
waits at the barrier and becomes the program. Beside it the parent samples the barrier,
watches the deadline and reaps; the kernel may kill for memory at any time. The state
records what went into the pipes and who wrote it, how far the shared stdin was read, and
whose CPU was used. The calls of the compiler and of the program are arbitrary.

Once everything is gone the parent's readers have seen all of it: `State.raw` is the
outcome `run` assembles, and `conclude` the rest of `execute`.
-/

namespace ZeroCode.Sandbox.Phases

open ZeroCode.Core ZeroCode.Foundation PipeIsolation

/-- Whose code writes: ours, the compile sub-child's, or the submitted program's. -/
inductive Writer
  | harness
  | compiler
  | program
  deriving DecidableEq, Repr

/-- One byte in one of the pipes. -/
structure Written where
  pipe : PipeName
  writer : Writer
  byte : UInt8
  deriving DecidableEq, Repr

/-- What the processes did to the pipes, in order, and the offset of the shared stdin. -/
structure Streams where
  log : List Written
  offset : ℕ
  deriving DecidableEq, Repr

/-- Write to a pipe. -/
def Streams.emit (io : Streams) (writer : Writer) (pipe : PipeName) (bytes : Bytes) : Streams :=
  { io with log := io.log ++ bytes.map fun byte => ⟨pipe, writer, byte⟩ }

/-- A system call of an executed program on one of its descriptors. -/
inductive Syscall
  | write (fd : ℕ) (bytes : Bytes)
  | read (fd : ℕ) (count : ℕ)
  deriving DecidableEq, Repr

/-- Perform a call, and return what it read. -/
def Streams.call (io : Streams) (writer : Writer) (table : FdTable) (stdin : Bytes) : Syscall → Streams × Bytes
  | .write fd bytes =>
    match table fd with
    | some ⟨.pipe (pipe, .write), _⟩ => (io.emit writer pipe bytes, [])
    | _ => (io, [])
  | .read fd count =>
    match table fd with
    | some ⟨.stdinFile, _⟩ =>
      let got := (stdin.drop io.offset).take count
      ({ io with offset := io.offset + got.length }, got)
    | _ => (io, [])

/-- The bytes of a pipe. -/
def bytesOf (log : List Written) (pipe : PipeName) : Bytes :=
  (log.filter fun w => w.pipe = pipe).map Written.byte

/-- The bytes one writer put into a pipe. -/
def bytesBy (log : List Written) (writer : Writer) (pipe : PipeName) : Bytes :=
  bytesOf (log.filter fun w => w.writer = writer) pipe

/-- Where the compile sub-child is; behind `executed` it is the compiler. -/
inductive SubChild
  | forked
  | redirected
  | executed
  | ended (e : ProcessEnd)
  deriving DecidableEq, Repr

/-- Where PID 1 is; before `setup` ends this includes the steps of the intermediate child. -/
inductive Pc
  | setup
  | compileFork
  | compileWait (sub : SubChild)
  | packing
  | sending (rest : Bytes)
  | phaseWrite
  | proceedRead
  | runExec
  | running
  | ended (e : ProcessEnd)
  deriving DecidableEq, Repr

/-- The barrier thread of the parent: its read of `phase` returned one byte, or anything else. -/
inductive Barrier
  | waiting
  | fired (readable : Bool) (cpu wall : Duration)
  | failed
  deriving DecidableEq, Repr

/-- The CPU sample of a barrier that fired. -/
def Barrier.cpu : Barrier → Option Duration
  | .fired _ cpu _ => some cpu
  | .waiting | .failed => none

/-- The wall-clock sample of a barrier that fired. -/
def Barrier.wall : Barrier → Option Duration
  | .fired _ _ wall => some wall
  | .waiting | .failed => none

/-- The processes of one job and what the parent noticed of them. The last five fields only
record what happened: that the compile phase was entered, what was packed, where the program
began to read, and what the calls of both executed programs returned. -/
structure State where
  pc : Pc
  io : Streams
  barrier : Barrier
  compilerCpu : Duration
  otherCpu : Duration
  oomKilled : Bool
  wallTimeout : Bool
  outer : Option ProcessEnd
  reaped : Bool
  entered : Bool
  archive : Option Bytes
  startOffset : Option ℕ
  compilerReplies : List Bytes
  replies : List Bytes
  deriving DecidableEq, Repr

/-- The job is about to be set up. -/
def State.init : State where
  pc := .setup
  io := ⟨[], 0⟩
  barrier := .waiting
  compilerCpu := 0
  otherCpu := 0
  oomKilled := false
  wallTimeout := false
  outer := none
  reaped := false
  entered := false
  archive := none
  startOffset := none
  compilerReplies := []
  replies := []

/-- The processes the kernel may choose to kill for the memory of the job; a helper is one that
the compiler or the program started. -/
inductive Victim
  | sub
  | inner
  | outer
  | helper
  deriving DecidableEq, Repr

/-- One step of a process, of the parent or of the kernel. -/
inductive Action
  | setupDone
  | fail (message : Bytes)
  | forkCompiler
  | subRedirect
  | subFail (message : Bytes)
  | subExec
  | compilerCall (c : Syscall)
  | compilerEnd (e : ProcessEnd)
  | reap (message : Bytes)
  | pack (archive : Option Bytes)
  | send (count : ℕ)
  | sendDone
  | phaseWrite (succeeds : Bool)
  | barrierFires (readable : Bool) (wall : Duration)
  | barrierFails
  | proceed (interrupted : Bool)
  | runExec
  | programCall (c : Syscall)
  | programEnd (e : ProcessEnd)
  | burnCompiler (cpu : Duration)
  | burnOther (cpu : Duration)
  | oomKill (victim : Victim)
  | deadline
  | wallKill
  | relay (raiseIneffective : Bool)
  | reapOuter
  deriving DecidableEq, Repr

/-- The end of a process that was killed. -/
def killed : ProcessEnd := .signaled 9

/-- PID 1 is gone, and with it every process of its namespace. -/
def Pc.kill : Pc → Pc
  | .ended e => .ended e
  | _ => .ended killed

/-- How the intermediate process ends when PID 1 ended in the given way. -/
def relayed (raiseIneffective : Bool) (e : ProcessEnd) : ProcessEnd :=
  relayGrandchildExit
    { fails := fun _ => none
      compilerEnd := .success
      programEnd := .success
      raiseIneffective := fun _ => raiseIneffective } e

/-- One step of the job, given its cache state and the numbers of its pipes. -/
def step (job : SandboxJob) (cached : Bool) (num : Numbering) (s : State) : Action → Option State
  | .setupDone =>
    match s.pc with
    | .setup =>
      match compilePhase (buildCompileArgv job.language job.limits) cached with
      | some _ => some { s with pc := .compileFork, entered := true }
      | none => some { s with pc := .runExec }
    | _ => none
  | .fail message =>
    match s.pc with
    | .setup | .compileFork | .runExec =>
      some { s with pc := .ended (.exit 127), io := s.io.emit .harness .stderr message }
    | _ => none
  | .forkCompiler =>
    match s.pc with
    | .compileFork => some { s with pc := .compileWait .forked }
    | _ => none
  | .subRedirect =>
    match s.pc with
    | .compileWait .forked => some { s with pc := .compileWait .redirected }
    | _ => none
  | .subFail message =>
    match s.pc with
    | .compileWait .forked => some { s with pc := .compileWait (.ended (.exit 127)) }
    | .compileWait .redirected =>
      some { s with pc := .compileWait (.ended (.exit 127)), io := s.io.emit .compiler .compile message }
    | _ => none
  | .subExec =>
    match s.pc with
    | .compileWait .redirected => some { s with pc := .compileWait .executed }
    | _ => none
  | .compilerCall c =>
    match s.pc with
    | .compileWait .executed =>
      let (io, reply) := s.io.call .compiler (compilerTable num) job.stdin c
      some { s with io := io, compilerReplies := s.compilerReplies ++ [reply] }
    | _ => none
  | .compilerEnd e =>
    match s.pc with
    | .compileWait .executed => some { s with pc := .compileWait (.ended e) }
    | _ => none
  | .reap message =>
    match s.pc with
    | .compileWait (.ended e) =>
      match waitpid e with
      | some (.exited 0) => some { s with pc := .packing }
      | some _ => some { s with pc := .ended compileFailedEnd }
      | none => some { s with pc := .ended (.exit 127), io := s.io.emit .harness .stderr message }
    | _ => none
  | .pack archive =>
    match s.pc with
    | .packing =>
      match archive with
      | some bytes => some { s with pc := .sending bytes, archive := some bytes }
      | none => some { s with pc := .phaseWrite }
    | _ => none
  | .send count =>
    match s.pc with
    | .sending (b :: rest) =>
      -- a write of nothing, like one that fails, ends the loop
      if count = 0 then some { s with pc := .phaseWrite }
      else
        some { s with
          pc := .sending ((b :: rest).drop count)
          io := s.io.emit .harness .artifact ((b :: rest).take count) }
    | _ => none
  | .sendDone =>
    match s.pc with
    | .sending [] => some { s with pc := .phaseWrite }
    | _ => none
  | .phaseWrite succeeds =>
    match s.pc with
    | .phaseWrite =>
      some { s with pc := .proceedRead, io := s.io.emit .harness .phase (if succeeds then [49] else []) }
    | _ => none
  | .barrierFires readable wall =>
    match s.barrier, bytesOf s.io.log .phase with
    | .waiting, _ :: _ =>
      let cpu := if readable then s.compilerCpu + s.otherCpu else 0
      some { s with barrier := .fired readable cpu wall }
    | _, _ => none
  | .barrierFails =>
    match s.barrier with
    | .waiting => some { s with barrier := .failed }
    | _ => none
  | .proceed interrupted =>
    match s.pc with
    | .proceedRead => if interrupted ∨ s.barrier ≠ .waiting then some { s with pc := .runExec } else none
    | _ => none
  | .runExec =>
    match s.pc with
    | .runExec =>
      if buildArgv job.language job.limits = [] then none
      else some { s with pc := .running, startOffset := some s.io.offset }
    | _ => none
  | .programCall c =>
    match s.pc with
    | .running =>
      let (io, reply) := s.io.call .program (programTable num) job.stdin c
      some { s with io := io, replies := s.replies ++ [reply] }
    | _ => none
  | .programEnd e =>
    match s.pc with
    | .running => some { s with pc := .ended e }
    | _ => none
  | .burnCompiler cpu =>
    match s.pc with
    | .compileWait (.ended _) => none
    | .compileWait _ => some { s with compilerCpu := s.compilerCpu + cpu }
    | _ => none
  | .burnOther cpu => some { s with otherCpu := s.otherCpu + cpu }
  | .oomKill victim =>
    match victim, s.pc, s.outer with
    | .sub, .compileWait (.ended _), _ => none
    | .sub, .compileWait _, _ => some { s with pc := .compileWait (.ended killed), oomKilled := true }
    | .inner, .ended _, _ => none
    | .inner, pc, _ => some { s with pc := pc.kill, oomKilled := true }
    | .outer, _, none => some { s with outer := some killed, oomKilled := true }
    | .helper, .compileWait .executed, _ | .helper, .running, _ => some { s with oomKilled := true }
    | _, _, _ => none
  | .deadline => if s.reaped || s.wallTimeout then none else some { s with wallTimeout := true }
  | .wallKill =>
    if s.wallTimeout && !s.reaped then
      some { s with pc := s.pc.kill, outer := some (s.outer.getD killed) }
    else none
  | .relay raiseIneffective =>
    match s.pc, s.outer with
    | .ended e, none => some { s with outer := some (relayed raiseIneffective e) }
    | _, _ => none
  | .reapOuter => if s.outer.isSome && !s.reaped then some { s with reaped := true } else none

/-- What the parent measures and reads besides the end of its child. Its readers see all that
the processes wrote. -/
structure Measures (s : State) where
  replies : Reader → List ReadReply
  wallElapsed : Duration
  runMemoryKb : ℕ
  cpuReadable : Bool
  memoryPeakBytes : ℕ
  eventsReadable : Bool
  stdout : delivered (replies .stdout) = bytesOf s.io.log .stdout
  stderr : delivered (replies .stderr) = bytesOf s.io.log .stderr
  compileStderr : delivered (replies .compileStderr) = bytesOf s.io.log .compile
  artifact : delivered (replies .artifact) = bytesOf s.io.log .artifact

/-- The upper bound on the captured artifact. -/
def maxArtifact : ℕ := 64 * 1024 * 1024

/-- The outcome `run` assembles, if the end of its child can be reported. -/
def State.raw (s : State) (limits : ResourceLimits) (m : Measures s) : Option RawOutcome :=
  (s.outer.bind waitpid).map fun status =>
    let kb := m.runMemoryKb % 2 ^ 32
    { exitStatus := status
      stdout := readCapped limits.maxStdout (m.replies .stdout)
      stderr := readCapped limits.maxStderr (m.replies .stderr)
      compileStderr := readCapped limits.maxStderr (m.replies .compileStderr)
      compiledBinary := readCapped maxArtifact (m.replies .artifact)
      killedByWallTimeout := s.wallTimeout
      runPhaseMemoryKb := if s.barrier.wall.isSome && 0 < kb then some kb else none
      compileCpuTime := s.barrier.cpu
      compileWallTime := s.barrier.wall }

/-- What a collected outcome says about the job. -/
structure Collected (s : State) (limits : ResourceLimits) (raw : RawOutcome) : Prop where
  exitStatus : ∃ e, s.outer = some e ∧ waitpid e = some raw.exitStatus
  stdout : raw.stdout = (bytesOf s.io.log .stdout).take limits.maxStdout
  stderr : raw.stderr = (bytesOf s.io.log .stderr).take limits.maxStderr
  compileStderr : raw.compileStderr = (bytesOf s.io.log .compile).take limits.maxStderr
  compiledBinary : raw.compiledBinary = (bytesOf s.io.log .artifact).take maxArtifact
  killedByWallTimeout : raw.killedByWallTimeout = s.wallTimeout
  compileCpuTime : raw.compileCpuTime = s.barrier.cpu
  compileWallTime : raw.compileWallTime = s.barrier.wall

/-- The readers collect the capped content of their pipes. -/
theorem raw_collected {s : State} {limits : ResourceLimits} {m : Measures s} {raw : RawOutcome}
    (h : s.raw limits m = some raw) : Collected s limits raw := by
  obtain ⟨status, hstatus, rfl⟩ := Option.map_eq_some_iff.mp h
  obtain ⟨e, houter, hwait⟩ := Option.bind_eq_some_iff.mp hstatus
  refine ⟨⟨e, houter, hwait⟩, ?_, ?_, ?_, ?_, rfl, rfl, rfl⟩
  · exact (readCapped_eq_take _ _).trans (by rw [m.stdout])
  · exact (readCapped_eq_take _ _).trans (by rw [m.stderr])
  · exact (readCapped_eq_take _ _).trans (by rw [m.compileStderr])
  · exact (readCapped_eq_take _ _).trans (by rw [m.artifact])

/-- The cgroup files triage reads. -/
def State.reading (s : State) (m : Measures s) : CgroupReading where
  cpuTime := if m.cpuReadable then s.compilerCpu + s.otherCpu else 0
  memoryPeakBytes := m.memoryPeakBytes
  oomKilled := s.oomKilled && m.eventsReadable

/-- What `execute` does with a collected outcome. -/
def conclude (job : SandboxJob) (cached : Bool) (raw : RawOutcome) (cgroup : CgroupReading)
    (wallElapsed : Duration) : Except SandboxError SandboxResult := do
  let compiledBinary :=
    if !cached && job.language.compileCmd.isSome && !raw.compiledBinary.isEmpty then
      some raw.compiledBinary
    else none
  let result ← classify raw cgroup (Duration.fromSecs job.limits.cpuTime) wallElapsed
  return { result with
    compiledBinary := compiledBinary
    memoryKb := raw.runPhaseMemoryKb.getD result.memoryKb }

/-- The job is over and the parent returns the result. -/
structure Returns (job : SandboxJob) (cached : Bool) (s : State) (m : Measures s) (result : SandboxResult) :
    Prop where
  ended : ∃ e, s.pc = .ended e
  reaped : s.reaped = true
  joined : s.barrier ≠ .waiting
  returned : ∃ raw, s.raw job.limits m = some raw ∧
    conclude job cached raw (s.reading m) m.wallElapsed = .ok result

/-- `execute` concludes what `run` collected. -/
theorem execute_eq_conclude (w : World) (job : SandboxJob) :
    execute w job = (do
      w.scratchCreate
      w.cgroupCreate
      let raw ← run w job.language job.limits (hasCachedBinary w job)
      conclude job (hasCachedBinary w job) raw w.reading w.wallElapsed) := rfl

/-- A concluded result is the triaged one, up to the artifact and the memory figure. -/
theorem conclude_ok {job : SandboxJob} {cached : Bool} {raw : RawOutcome} {cgroup : CgroupReading}
    {wallElapsed : Duration} {result : SandboxResult} (h : conclude job cached raw cgroup wallElapsed = .ok result) :
    ∃ triaged, classify raw cgroup (Duration.fromSecs job.limits.cpuTime) wallElapsed = .ok triaged ∧
      result = { triaged with
        compiledBinary :=
          if !cached && job.language.compileCmd.isSome && !raw.compiledBinary.isEmpty then
            some raw.compiledBinary
          else none
        memoryKb := raw.runPhaseMemoryKb.getD triaged.memoryKb } := by
  obtain ⟨triaged, htriaged, h⟩ := bind_eq_ok_iff.mp h
  exact ⟨triaged, htriaged, (Except.ok.inj h).symm⟩

/-- The parent returns a result once everything is gone and the end of its child can be read. -/
theorem exists_returns (job : SandboxJob) (cached : Bool) {s : State} {m : Measures s} {e outer : ProcessEnd}
    (ended : s.pc = .ended e) (reaped : s.reaped = true) (joined : s.barrier ≠ .waiting)
    (houter : s.outer = some outer) (hdecodable : outer.isDecodable = true) :
    ∃ result, Returns job cached s m result := by
  obtain ⟨status, hstatus, _⟩ := waitpid_of_isDecodable hdecodable
  have hraw : (s.raw job.limits m).isSome = true := by simp [State.raw, houter, hstatus]
  obtain ⟨raw, hraw⟩ := Option.isSome_iff_exists.mp hraw
  obtain ⟨triaged, htriaged, _⟩ :=
    classify_spec raw (s.reading m) (Duration.fromSecs job.limits.cpuTime) m.wallElapsed
  exact ⟨_, ⟨e, ended⟩, reaped, joined, raw, hraw, bind_eq_ok_iff.mpr ⟨triaged, htriaged, rfl⟩⟩

/-- The intermediate process ended with the sentinel, and no kill was noticed. -/
def EndsWithSentinel (s : State) (m : Measures s) : Prop :=
  (s.reading m).oomKilled = false ∧ s.wallTimeout = false ∧ s.outer = some compileFailedEnd

/-- The sentinel decides exactly when the child ended with it and no kill was noticed. -/
theorem gradedBySentinel_iff {s : State} {limits : ResourceLimits} {raw : RawOutcome} (m : Measures s)
    (h : Collected s limits raw) : gradedBySentinel raw (s.reading m) = true ↔ EndsWithSentinel s m := by
  obtain ⟨e, houter, hwait⟩ := h.exitStatus
  simp only [gradedBySentinel, EndsWithSentinel, Bool.and_eq_true, Bool.not_eq_true', h.killedByWallTimeout,
    isCompileFailed_of_waitpid hwait, houter, Option.some.injEq, and_assoc]

/-- The status and the streams of a result: the sentinel makes it a compile error and discards
the captured streams, any other result keeps them. -/
theorem returns_streams {job : SandboxJob} {cached : Bool} {s : State} {m : Measures s} {result : SandboxResult}
    (h : Returns job cached s m result) :
    (EndsWithSentinel s m → result.status = .compileError ∧ result.stdout = [] ∧ result.stderr = []) ∧
      (¬ EndsWithSentinel s m → result.status ≠ .compileError ∧
        result.stdout = (bytesOf s.io.log .stdout).take job.limits.maxStdout ∧
        result.stderr = (bytesOf s.io.log .stderr).take job.limits.maxStderr) := by
  obtain ⟨raw, hraw, hconcluded⟩ := h.returned
  obtain ⟨triaged, htriaged, rfl⟩ := conclude_ok hconcluded
  obtain ⟨result', hresult', hstatus, hkept, hdiscarded⟩ :=
    classify_spec raw (s.reading m) (Duration.fromSecs job.limits.cpuTime) m.wallElapsed
  rw [hresult'] at htriaged
  cases htriaged
  have hcollected := raw_collected hraw
  rw [← gradedBySentinel_iff m hcollected, ← classifyStatus_compileError_iff_graded, ← hstatus]
  refine ⟨?_, ?_⟩
  · intro herror
    exact ⟨herror, (hdiscarded herror).1, (hdiscarded herror).2.1⟩
  · intro hother
    exact ⟨hother, (hkept hother).1.trans hcollected.stdout, (hkept hother).2.trans hcollected.stderr⟩

/-- A result is a compile error exactly when the sentinel ends the job. -/
theorem returns_compileError_iff {job : SandboxJob} {cached : Bool} {s : State} {m : Measures s}
    {result : SandboxResult} (h : Returns job cached s m result) :
    result.status = .compileError ↔ EndsWithSentinel s m := by
  obtain ⟨hsentinel, hother⟩ := returns_streams h
  refine ⟨?_, fun hend => (hsentinel hend).1⟩
  intro herror
  by_contra hend
  exact (hother hend).1 herror

/-- The steps of a job that compiles, sends its artifact and runs, given the calls of the
compiler and of the program; both exit with 0. -/
def coldRun (compiler program : List Syscall) (archive : Bytes) : List Action :=
  let setup : List Action := [.setupDone, .forkCompiler, .subRedirect, .subExec]
  let barrier : List Action :=
    [.compilerEnd .success, .reap [], .pack (some archive), .send archive.length, .sendDone, .phaseWrite true,
      .barrierFires true 1, .proceed false, .runExec]
  let exit : List Action := [.programEnd .success, .relay false, .reapOuter]
  setup ++ compiler.map .compilerCall ++ barrier ++ program.map .programCall ++ exit

/-- The state at the end of a run, or the initial one for a run that is not enabled. -/
def finalState (job : SandboxJob) (cached : Bool) (actions : List Action) : State :=
  (runActions (step job cached .consecutive) State.init actions).getD State.init

/-- The job is over, as far as the parent can tell from the state. -/
def State.over (s : State) : Bool :=
  (match s.pc with | .ended _ => true | _ => false) && s.reaped && s.barrier != .waiting &&
    s.outer.any ProcessEnd.isDecodable

/-- An enabled run reaches its final state. -/
theorem reachable_finalState (job : SandboxJob) (cached : Bool) (actions : List Action)
    (h : (runActions (step job cached .consecutive) State.init actions).isSome = true) :
    Reachable (step job cached .consecutive) State.init (finalState job cached actions) :=
  .of_runActions actions (runActions_eq_lastState h)

/-- Readers that get the whole content of their pipe at once, and readable cgroup files. -/
def Measures.whole (s : State) (wallElapsed : Duration) : Measures s where
  replies
    | .stdout => [.data (bytesOf s.io.log .stdout)]
    | .stderr => [.data (bytesOf s.io.log .stderr)]
    | .compileStderr => [.data (bytesOf s.io.log .compile)]
    | .artifact => [.data (bytesOf s.io.log .artifact)]
  wallElapsed := wallElapsed
  runMemoryKb := 0
  cpuReadable := true
  memoryPeakBytes := 0
  eventsReadable := true
  stdout := delivered_singleton _
  stderr := delivered_singleton _
  compileStderr := delivered_singleton _
  artifact := delivered_singleton _

/-- A run that ends with the job over returns a result. -/
theorem exists_returns_finalState (job : SandboxJob) (cached : Bool) (actions : List Action)
    (h : (finalState job cached actions).over = true) (wallElapsed : Duration) :
    ∃ result, Returns job cached (finalState job cached actions) (.whole _ wallElapsed) result := by
  simp only [State.over, Bool.and_eq_true, bne_iff_ne, Option.any_eq_true] at h
  obtain ⟨⟨⟨hended, hreaped⟩, hjoined⟩, outer, houter, hdecodable⟩ := h
  split at hended
  · exact exists_returns job cached ‹_› hreaped hjoined houter hdecodable
  · cases hended

end ZeroCode.Sandbox.Phases
