import ZeroCode.Sandbox.Command
import ZeroCode.Sandbox.Outcome

/-!
# The sandbox child and its two descendants

After the fork three processes take part in a job. The intermediate child enters the
namespaces, waits for its acknowledgement and forks PID 1 of the new namespace, whose
end it mirrors. PID 1 finishes the setup, runs the compiler as a sub-child and turns
into the submitted program. Every fallible step may fail; which ones do, and how the
compiler and the program end, is given by a `ChildWorld`.

A failed step never reaches the worker as an error. It ends its process with an exit
code, which the other processes relay as if the program had produced it.
-/

namespace ZeroCode.Sandbox

open ZeroCode.Core

/-- The fallible steps the code performs between the fork and the program. -/
inductive SetupStep
  | unshare
  | readyWrite
  | startRead
  | pidnsFork
  | makePrivate
  | pivotIntoRunner
  | openStdin
  | dup2Stdin
  | dup2Stdout
  | dup2Stderr
  | dropCapabilities
  | setNoNewPrivs
  | landlock
  | seccomp
  | compileFork
  | compileDup2Stderr
  | compileExec
  | runExec
  deriving DecidableEq, Repr

/-- The error a failing step raises; composite steps pass on the message of their own failing call. -/
def SetupStep.error (e : String) : SetupStep → SandboxError
  | .unshare => .namespaceSetup ("unshare: " ++ e)
  | .readyWrite => .spawn ("ready signal: " ++ e)
  | .startRead => .spawn ("start ack: " ++ e)
  | .pidnsFork => .spawn ("pidns fork: " ++ e)
  | .makePrivate => .mountSetup ("make rprivate /: " ++ e)
  | .pivotIntoRunner => .mountSetup e
  | .openStdin => .mountSetup ("open /box/stdin: " ++ e)
  | .dup2Stdin => .spawn ("dup2 stdin: " ++ e)
  | .dup2Stdout => .spawn ("dup2 stdout: " ++ e)
  | .dup2Stderr => .spawn ("dup2 stderr: " ++ e)
  | .dropCapabilities => .spawn e
  | .setNoNewPrivs => .spawn ("PR_SET_NO_NEW_PRIVS: " ++ e)
  | .landlock => .landlockSetup e
  | .seccomp => .seccompSetup e
  | .compileFork => .spawn ("compile fork: " ++ e)
  | .compileDup2Stderr => .spawn ("dup2 compile stderr: " ++ e)
  | .compileExec => .spawn e
  | .runExec => .spawn ("execvpe: " ++ e)

/-- What the kernel and the two executed programs do to one job. -/
structure ChildWorld where
  fails : SetupStep → Option String
  compilerEnd : ProcessEnd
  programEnd : ProcessEnd
  raiseIneffective : ℕ → Bool

/-- Why a process stopped running our code: a propagated error, an explicit `exit`, or
`execvpe`, after which it ends as the executed program does. -/
inductive ChildStop
  | error (e : SandboxError)
  | exit (code : ℕ)
  | exec (program : ProcessEnd)
  deriving DecidableEq, Repr

/-- How the process ends; a propagated error is printed and becomes exit code 127. -/
def ChildStop.ending : ChildStop → ProcessEnd
  | .error _ => .exit 127
  | .exit code => .exit code
  | .exec program => program

/-- What PID 1 did: why it stopped, how its compile sub-child ended, and whether it
passed the barrier between the phases. -/
structure ChildTrace where
  stop : ChildStop
  compiler : Option ProcessEnd
  barrier : Bool
  deriving DecidableEq, Repr

/-- The first of the steps that fails, with its error. -/
def firstFailure (w : ChildWorld) (steps : List SetupStep) : Option SandboxError :=
  steps.findSome? fun step => (w.fails step).map step.error

/-- The steps of the intermediate child, up to its fork. -/
def outerSetup : List SetupStep := [.unshare, .readyWrite, .startRead, .pidnsFork]

/-- The steps of PID 1 before the first of the two phases. -/
def sandboxSetup : List SetupStep :=
  [.makePrivate, .pivotIntoRunner, .openStdin, .dup2Stdin, .dup2Stdout, .dup2Stderr,
    .dropCapabilities, .setNoNewPrivs, .landlock, .seccomp]

/-- The compile sub-child: redirect stderr, then become the compiler. -/
def compileSubChild (w : ChildWorld) (compileArgv : List CString) : ProcessEnd :=
  if (w.fails .compileDup2Stderr).isSome then .exit 127
  else if compileArgv.isEmpty then .exit 127
  else if (w.fails .compileExec).isSome then .exit 127
  else w.compilerEnd

/-- Fork the compile sub-child and wait for it; `none` means the run phase may start. -/
def runCompilePhase (w : ChildWorld) (compileArgv : List CString) : Option ChildStop × Option ProcessEnd :=
  match w.fails .compileFork with
  | some e => (some (.error (SetupStep.compileFork.error e)), none)
  | none =>
    let sub := compileSubChild w compileArgv
    match waitpid sub with
    | some (.exited 0) => (none, some sub)
    | some _ => (some (.exit compileFailedExitCode), some sub)
    | none => (some (.error (.wait "compile wait: EINVAL")), some sub)

/-- The last step of PID 1: become the submitted program. -/
def runPhase (w : ChildWorld) (runArgv : List CString) : ChildStop :=
  if runArgv.isEmpty then .error (.spawn "empty run_cmd")
  else match w.fails .runExec with
    | some e => .error (SetupStep.runExec.error e)
    | none => .exec w.programEnd

/-- The compile phase, if the job has one, and the run phase after it. -/
def runPhases (w : ChildWorld) (compileArgv : Option (List CString)) (runArgv : List CString)
    (hasCachedBinary : Bool) : ChildTrace :=
  match compilePhase compileArgv hasCachedBinary with
  | none => ⟨runPhase w runArgv, none, false⟩
  | some argv =>
    match runCompilePhase w argv with
    | (some stop, compiler) => ⟨stop, compiler, false⟩
    | (none, compiler) => ⟨runPhase w runArgv, compiler, true⟩

/-- PID 1 of the new namespace. -/
def runSandboxChild (w : ChildWorld) (compileArgv : Option (List CString)) (runArgv : List CString)
    (hasCachedBinary : Bool) : ChildTrace :=
  match firstFailure w sandboxSetup with
  | some e => ⟨.error e, none, false⟩
  | none => runPhases w compileArgv runArgv hasCachedBinary

/-- The intermediate process ends the way PID 1 did. -/
def relayGrandchildExit (w : ChildWorld) (grandchild : ProcessEnd) : ProcessEnd :=
  match waitpid grandchild with
  | some (.exited code) => .exit code.toNat
  | some (.signaled sig) =>
    if w.raiseIneffective sig.toNat then .exit (128 + sig.toNat) else .signaled sig.toNat
  | _ => .exit 127

/-- The intermediate child: its own end, and what PID 1 did if it was forked at all. -/
def runChild (w : ChildWorld) (compileArgv : Option (List CString)) (runArgv : List CString)
    (hasCachedBinary : Bool) : ProcessEnd × Option ChildTrace :=
  match firstFailure w outerSetup with
  | some e => ((ChildStop.error e).ending, none)
  | none =>
    let trace := runSandboxChild w compileArgv runArgv hasCachedBinary
    (relayGrandchildExit w trace.stop.ending, some trace)

/-- The compile sub-child was run and did not exit with 0. -/
def ChildTrace.CompileFailed (trace : ChildTrace) : Prop :=
  ∃ e, trace.compiler = some e ∧ e ≠ .success

/-- PID 1 became the submitted program, which ended in the given way. -/
def ChildTrace.Executed (trace : ChildTrace) (program : ProcessEnd) : Prop :=
  trace.stop = .exec program

/-- The sentinel as an exit code of a process. -/
def compileFailedEnd : ProcessEnd := .exit compileFailedExitCode

/-- Relaying neither invents the sentinel nor loses it. -/
theorem relayGrandchildExit_sentinel_iff (w : ChildWorld) (grandchild : ProcessEnd) :
    relayGrandchildExit w grandchild = compileFailedEnd ↔ grandchild = compileFailedEnd := by
  cases grandchild with
  | exited code =>
    simp only [relayGrandchildExit, waitpid, Int.toNat_natCast, ProcessEnd.exit, Fin.ofNat_val_eq_self]
  | signaled sig =>
    by_cases hsig : decodableSignal sig = true
    · simp only [relayGrandchildExit, waitpid, if_pos hsig, Int.toNat_natCast]
      have hbound : 1 ≤ sig ∧ sig ≤ 31 := by simpa [decodableSignal] using hsig
      split
      · simp only [compileFailedEnd, compileFailedExitCode, ProcessEnd.exit, ProcessEnd.exited.injEq,
          reduceCtorEq, iff_false, Fin.ext_iff, Fin.val_ofNat]
        omega
      · simp [compileFailedEnd, ProcessEnd.exit]
    · simp only [relayGrandchildExit, waitpid, if_neg hsig]
      exact ⟨fun h => absurd h (by decide), fun h => by cases h⟩

/-- A compile phase that lets the run phase start ended with exit code 0. -/
theorem runCompilePhase_passed {w : ChildWorld} {argv : List CString} {compiler : Option ProcessEnd}
    (h : runCompilePhase w argv = (none, compiler)) : compiler = some .success := by
  unfold runCompilePhase at h
  split at h
  · cases h
  · dsimp only at h
    split at h
    · rename_i hwait
      cases h
      cases hsub : compileSubChild w argv with
      | exited code =>
        rw [hsub] at hwait
        simp only [waitpid, Option.some.injEq, WaitStatus.exited.injEq] at hwait
        have hzero : code = 0 := by exact_mod_cast hwait
        rw [hzero]
      | signaled sig =>
        rw [hsub] at hwait
        simp only [waitpid] at hwait
        split at hwait <;> cases hwait
    · cases h
    · cases h

/-- A compile phase that stops PID 1 raises the sentinel exactly for a reportable failure
of the compile sub-child. -/
theorem runCompilePhase_stopped {w : ChildWorld} {argv : List CString} {stop : ChildStop}
    {compiler : Option ProcessEnd} (h : runCompilePhase w argv = (some stop, compiler)) :
    (stop = .exit compileFailedExitCode ∧ ∃ e, compiler = some e ∧ e ≠ .success ∧ e.isDecodable = true) ∨
      ((∃ e, stop = .error e) ∧ ∀ e, compiler = some e → e ≠ .success ∧ e.isDecodable = false) := by
  unfold runCompilePhase at h
  split at h
  · cases h
    exact Or.inr ⟨⟨_, rfl⟩, by simp⟩
  · dsimp only at h
    split at h
    · cases h
    · rename_i status hwait hreply
      cases h
      refine Or.inl ⟨rfl, _, rfl, ?_, ?_⟩
      · intro hzero
        rw [hzero] at hreply
        cases hreply
        exact hwait rfl
      · cases hsub : compileSubChild w argv with
        | exited code => rfl
        | signaled sig =>
          rw [hsub] at hreply
          simp only [waitpid] at hreply
          split at hreply
          · assumption
          · cases hreply
    · rename_i hreply
      cases h
      refine Or.inr ⟨⟨_, rfl⟩, ?_⟩
      intro e he
      cases he
      cases hsub : compileSubChild w argv with
      | exited code => rw [hsub] at hreply; cases hreply
      | signaled sig =>
        rw [hsub] at hreply
        simp only [waitpid] at hreply
        split at hreply
        · cases hreply
        · rename_i hsig
          exact ⟨by simp, by simpa [ProcessEnd.isDecodable] using hsig⟩

/-- PID 1 before or in its run phase either propagates an error or becomes the program. -/
theorem runPhase_cases (w : ChildWorld) (runArgv : List CString) :
    (∃ e, runPhase w runArgv = .error e) ∨ runPhase w runArgv = .exec w.programEnd := by
  unfold runPhase
  split_ifs
  · exact Or.inl ⟨_, rfl⟩
  · split
    · exact Or.inl ⟨_, rfl⟩
    · exact Or.inr rfl

/-- The three ways PID 1 stops: without a failed compile, by the sentinel for a failed
compile, or by an error because the end of the compiler could not be read. -/
theorem runSandboxChild_cases (w : ChildWorld) (compileArgv : Option (List CString))
    (runArgv : List CString) (hasCachedBinary : Bool) :
    let trace := runSandboxChild w compileArgv runArgv hasCachedBinary
    (¬ trace.CompileFailed ∧ (∀ e, trace.compiler = some e → e.isDecodable = true) ∧
        ((∃ e, trace.stop = .error e) ∨ trace.Executed w.programEnd)) ∨
      (trace.CompileFailed ∧ (∀ e, trace.compiler = some e → e.isDecodable = true) ∧
        trace.stop = .exit compileFailedExitCode) ∨
      (trace.CompileFailed ∧ (∀ e, trace.compiler = some e → e.isDecodable = false) ∧
        ∃ e, trace.stop = .error e) := by
  dsimp only [ChildTrace.CompileFailed, ChildTrace.Executed]
  unfold runSandboxChild
  split
  · exact Or.inl ⟨by simp, by simp, Or.inl ⟨_, rfl⟩⟩
  · unfold runPhases
    split
    · exact Or.inl ⟨by simp, by simp, runPhase_cases w runArgv⟩
    · rename_i argv _
      split
      · rename_i stop compiler hphase
        rcases runCompilePhase_stopped hphase with ⟨hstop, e, rfl, hne, hdec⟩ | ⟨hstop, hcompiler⟩
        · exact Or.inr (Or.inl ⟨⟨e, rfl, hne⟩, by simpa using hdec, hstop⟩)
        · cases compiler with
          | none => exact Or.inl ⟨by simp, by simp, Or.inl hstop⟩
          | some e =>
            obtain ⟨hne, hdec⟩ := hcompiler e rfl
            exact Or.inr (Or.inr ⟨⟨e, rfl, hne⟩, by simpa using hdec, hstop⟩)
      · rename_i compiler hphase
        have hpassed := runCompilePhase_passed hphase
        subst hpassed
        refine Or.inl ⟨by simp, ?_, runPhase_cases w runArgv⟩
        intro e he
        cases he
        rfl

end ZeroCode.Sandbox
