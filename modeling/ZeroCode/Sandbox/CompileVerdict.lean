import ZeroCode.Sandbox.HarnessFault

/-!
# When a compile error is a failed compile

The verdict on the compile phase travels in the exit code of PID 1, a code the program
can produce as well. Without an OOM event and a wall kill triage reports a compile error
exactly for the sentinel, so two things separate the report from a failed compile: a
program that exits with the sentinel, and a compiler whose end `waitpid` cannot report.
Both are conditions on how the two executed programs end, given that they are reached.
-/

namespace ZeroCode.Sandbox

open ZeroCode.Core

/-- The compile sub-child of the job was run and did not exit with 0. -/
def CompileFailed (child : ProcessEnd × Option ChildTrace) : Prop :=
  ∃ trace, child.2 = some trace ∧ trace.CompileFailed

/-- The job became the submitted program. -/
def ProgramExecuted (child : ProcessEnd × Option ChildTrace) : Prop :=
  ∃ trace program, child.2 = some trace ∧ trace.Executed program

/-- The steps up to and including the `execvpe` of the compiler go through. -/
def ReachesCompiler (w : ChildWorld) (compileArgv : Option (List CString)) (hasCachedBinary : Bool) : Prop :=
  (compilePhase compileArgv hasCachedBinary).isSome = true ∧
    ∀ step ∈ outerSetup ++ (sandboxSetup ++ [.compileFork, .compileDup2Stderr, .compileExec]),
      w.fails step = none

/-- The steps up to and including the `execvpe` of the program go through. -/
def ReachesProgram (w : ChildWorld) (compileArgv : Option (List CString)) (runArgv : List CString)
    (hasCachedBinary : Bool) : Prop :=
  ¬ HarnessFault w compileArgv runArgv hasCachedBinary ∧
    ((compilePhase compileArgv hasCachedBinary).isSome = true → w.compilerEnd = .success)

/-- No program that is reached exits with the sentinel, and no compiler that is reached
ends in a way `waitpid` cannot report. -/
def SentinelUnambiguous (w : ChildWorld) (compileArgv : Option (List CString)) (runArgv : List CString)
    (hasCachedBinary : Bool) : Prop :=
  (ReachesProgram w compileArgv runArgv hasCachedBinary → w.programEnd ≠ compileFailedEnd) ∧
    (ReachesCompiler w compileArgv hasCachedBinary → w.compilerEnd.isDecodable = true)

/-- No step of a list fails exactly when there is no first failure. -/
theorem firstFailure_eq_none_iff (w : ChildWorld) (steps : List SetupStep) :
    firstFailure w steps = none ↔ ∀ step ∈ steps, w.fails step = none := by
  simp [firstFailure]

/-- Outside the run phase a step fails only when the kernel refuses it. -/
theorem not_stepFails_iff {w : ChildWorld} {runArgv : List CString} {step : SetupStep}
    (hstep : step ≠ .runExec) : ¬ StepFails w runArgv step ↔ w.fails step = none := by
  simp [StepFails, hstep]

/-- Steps in front of the run phase go through when the kernel refuses none of them. -/
theorem forall_not_stepFails_iff {w : ChildWorld} {runArgv : List CString} {steps : List SetupStep}
    (hexec : .runExec ∉ steps) :
    (∀ step ∈ steps, ¬ StepFails w runArgv step) ↔ ∀ step ∈ steps, w.fails step = none :=
  forall₂_congr fun _ hmem => not_stepFails_iff fun hrun => hexec (hrun ▸ hmem)

/-- The run phase becomes the program exactly when it has one and can execute it. -/
theorem runPhase_eq_exec_iff (w : ChildWorld) (runArgv : List CString) :
    runPhase w runArgv = .exec w.programEnd ↔ ¬ StepFails w runArgv .runExec := by
  constructor
  · intro h hfails
    obtain ⟨e, he⟩ := runPhase_of_fault hfails
    rw [he] at h
    cases h
  · intro h
    have hexec : w.fails .runExec = none ∧ runArgv ≠ [] := by
      simpa [StepFails, not_or] using h
    rw [runPhase, if_neg (by simpa using hexec.2), hexec.1]

/-- A sub-child that gets past its redirection and its `execvpe` ends as the compiler does. -/
theorem compileSubChild_cases {w : ChildWorld} {argv : List CString} (hargv : argv ≠ []) :
    (w.fails .compileDup2Stderr = none ∧ w.fails .compileExec = none ∧
        compileSubChild w argv = w.compilerEnd) ∨
      (¬ (w.fails .compileDup2Stderr = none ∧ w.fails .compileExec = none) ∧
        compileSubChild w argv = .exit 127) := by
  by_cases hsub : (w.fails .compileDup2Stderr).isSome = true ∨ (w.fails .compileExec).isSome = true
  · refine Or.inr ⟨?_, compileSubChild_of_fault hsub⟩
    intro hpassed
    obtain ⟨hdup, hexec⟩ := hpassed
    simp [hdup, hexec] at hsub
  · rw [not_or] at hsub
    refine Or.inl ⟨by simpa using hsub.1, by simpa using hsub.2, ?_⟩
    rw [compileSubChild, if_neg hsub.1, if_neg (by simpa using hargv), if_neg hsub.2]

/-- The compiler ran and ended in the given way exactly when its sub-child was forked. -/
theorem runCompilePhase_snd (w : ChildWorld) (argv : List CString) :
    (runCompilePhase w argv).2 =
      if w.fails .compileFork = none then some (compileSubChild w argv) else none := by
  unfold runCompilePhase
  cases hfork : w.fails .compileFork with
  | some e => rfl
  | none =>
    rw [if_pos rfl]
    dsimp only
    split <;> rfl

/-- The compile phase lets the run phase start exactly when the compiler was run and exited with 0. -/
theorem runCompilePhase_fst_eq_none_iff {w : ChildWorld} {argv : List CString} (hargv : argv ≠ []) :
    (runCompilePhase w argv).1 = none ↔
      w.fails .compileFork = none ∧ w.fails .compileDup2Stderr = none ∧ w.fails .compileExec = none ∧
        w.compilerEnd = .success := by
  constructor
  · intro h
    have hpassed : (runCompilePhase w argv).2 = some .success :=
      @runCompilePhase_passed w argv _ (Prod.ext h rfl)
    rw [runCompilePhase_snd] at hpassed
    split at hpassed
    · rename_i hfork
      have hzero : compileSubChild w argv = .success := Option.some.inj hpassed
      rcases @compileSubChild_cases w argv hargv with ⟨hdup, hexec, hend⟩ | ⟨_, hend⟩
      · exact ⟨hfork, hdup, hexec, hend ▸ hzero⟩
      · rw [hend] at hzero
        exact absurd hzero (by decide)
    · cases hpassed
  · intro hpassed
    obtain ⟨hfork, hdup, hexec, hzero⟩ := hpassed
    have hend : compileSubChild w argv = .success := by
      rcases @compileSubChild_cases w argv hargv with ⟨_, _, hend⟩ | ⟨hfault, _⟩
      · rw [hend, hzero]
      · exact absurd ⟨hdup, hexec⟩ hfault
    rw [runCompilePhase, hfork]
    dsimp only
    rw [hend]
    rfl

/-- PID 1 exists once the intermediate child got through its own steps. -/
theorem runChild_snd_eq_some_iff {w : ChildWorld} {compileArgv : Option (List CString)}
    {runArgv : List CString} {hasCachedBinary : Bool} {trace : ChildTrace} :
    (runChild w compileArgv runArgv hasCachedBinary).2 = some trace ↔
      (∀ step ∈ outerSetup, w.fails step = none) ∧
        runSandboxChild w compileArgv runArgv hasCachedBinary = trace := by
  rw [← firstFailure_eq_none_iff, runChild]
  cases firstFailure w outerSetup <;> simp

/-- The compiler PID 1 ran is the one of its compile phase, entered after a complete setup. -/
theorem runSandboxChild_compiler_eq_some_iff {w : ChildWorld} {compileArgv : Option (List CString)}
    {runArgv : List CString} {hasCachedBinary : Bool} {e : ProcessEnd} :
    (runSandboxChild w compileArgv runArgv hasCachedBinary).compiler = some e ↔
      (∀ step ∈ sandboxSetup, w.fails step = none) ∧
        ∃ argv, compilePhase compileArgv hasCachedBinary = some argv ∧
          w.fails .compileFork = none ∧ compileSubChild w argv = e := by
  rw [← firstFailure_eq_none_iff, runSandboxChild]
  cases firstFailure w sandboxSetup with
  | some e => simp
  | none =>
    rw [runPhases]
    cases compilePhase compileArgv hasCachedBinary with
    | none => simp
    | some argv =>
      have hcompiler := runCompilePhase_snd w argv
      rcases hphase : runCompilePhase w argv with ⟨_ | stop, compiler⟩
      all_goals
        rw [hphase] at hcompiler
        dsimp only at hcompiler ⊢
        rw [hphase]
        dsimp only
        rw [hcompiler]
        by_cases hfork : w.fails .compileFork = none <;> simp [hfork]

/-- PID 1 becomes the program after a complete setup and a compile phase that passed. -/
theorem runSandboxChild_executed_iff {w : ChildWorld} {compileArgv : Option (List CString)}
    {runArgv : List CString} {hasCachedBinary : Bool} :
    (runSandboxChild w compileArgv runArgv hasCachedBinary).Executed w.programEnd ↔
      (∀ step ∈ sandboxSetup, w.fails step = none) ∧
        (∀ argv, compilePhase compileArgv hasCachedBinary = some argv →
          (runCompilePhase w argv).1 = none) ∧ ¬ StepFails w runArgv .runExec := by
  rw [← firstFailure_eq_none_iff, runSandboxChild, ChildTrace.Executed, ← runPhase_eq_exec_iff]
  cases firstFailure w sandboxSetup with
  | some e => simp
  | none =>
    rw [runPhases]
    cases compilePhase compileArgv hasCachedBinary with
    | none => simp
    | some argv =>
      have hstop : ∀ stop, (runCompilePhase w argv).1 = some stop → stop ≠ .exec w.programEnd := by
        intro stop hstop hexec
        rcases runCompilePhase_stopped (Prod.ext hstop rfl : runCompilePhase w argv = (some stop, _)) with
          ⟨heq, _⟩ | ⟨⟨_, heq⟩, _⟩
        · rw [hexec] at heq
          cases heq
        · rw [hexec] at heq
          cases heq
      rcases hphase : runCompilePhase w argv with ⟨_ | stop, compiler⟩
      · simp [hphase]
      · have hne := hstop stop (by rw [hphase])
        simp [hphase, hne]

/-- The steps of the two phases go through exactly when the compile phase passes and the run phase
executes the program. -/
theorem phaseSteps_pass_iff {w : ChildWorld} {compileArgv : Option (List CString)}
    {runArgv : List CString} {hasCachedBinary : Bool} :
    ((∀ step ∈ phaseSteps w compileArgv hasCachedBinary, ¬ StepFails w runArgv step) ∧
        ((compilePhase compileArgv hasCachedBinary).isSome = true → w.compilerEnd = .success)) ↔
      (∀ argv, compilePhase compileArgv hasCachedBinary = some argv → (runCompilePhase w argv).1 = none) ∧
        ¬ StepFails w runArgv .runExec := by
  unfold phaseSteps
  cases hphase : compilePhase compileArgv hasCachedBinary with
  | none => simp
  | some argv =>
    simp only [Option.some.injEq, forall_eq', runCompilePhase_fst_eq_none_iff (compilePhase_ne_nil hphase)]
    by_cases hzero : w.compilerEnd = .success
    · simp [hzero, not_stepFails_iff, and_assoc]
    · simp [hzero]

/-- The job becomes the program exactly when the program is reached. -/
theorem reachesProgram_iff {w : ChildWorld} {compileArgv : Option (List CString)}
    {runArgv : List CString} {hasCachedBinary : Bool} :
    ReachesProgram w compileArgv runArgv hasCachedBinary ↔
      ∃ trace, (runChild w compileArgv runArgv hasCachedBinary).2 = some trace ∧
        trace.Executed w.programEnd := by
  simp only [runChild_snd_eq_some_iff, ReachesProgram, HarnessFault, not_exists, not_and, List.forall_mem_append]
  rw [forall_not_stepFails_iff (by decide), forall_not_stepFails_iff (by decide), and_assoc, and_assoc,
    phaseSteps_pass_iff]
  constructor
  · intro hreaches
    obtain ⟨houter, hinside⟩ := hreaches
    exact ⟨_, ⟨houter, rfl⟩, runSandboxChild_executed_iff.mpr hinside⟩
  · intro hexecuted
    obtain ⟨trace, ⟨houter, rfl⟩, hexec⟩ := hexecuted
    exact ⟨houter, runSandboxChild_executed_iff.mp hexec⟩

/-- A compiler whose end cannot be reported was reached, and is the one that ended so. -/
theorem reachesCompiler_undecodable_iff {w : ChildWorld} {compileArgv : Option (List CString)}
    {runArgv : List CString} {hasCachedBinary : Bool} :
    (ReachesCompiler w compileArgv hasCachedBinary ∧ w.compilerEnd.isDecodable = false) ↔
      ∃ trace e, (runChild w compileArgv runArgv hasCachedBinary).2 = some trace ∧
        trace.compiler = some e ∧ e.isDecodable = false := by
  simp only [runChild_snd_eq_some_iff, ReachesCompiler, List.forall_mem_append, List.forall_mem_cons]
  constructor
  · intro hreaches
    obtain ⟨⟨hsome, houter, hsandbox, hfork, hdup, hexec, _⟩, hend⟩ := hreaches
    obtain ⟨argv, hphase⟩ := Option.isSome_iff_exists.mp hsome
    refine ⟨_, w.compilerEnd, ⟨houter, rfl⟩, runSandboxChild_compiler_eq_some_iff.mpr ?_, hend⟩
    refine ⟨hsandbox, argv, hphase, hfork, ?_⟩
    exact (compileSubChild_cases (compilePhase_ne_nil hphase)).elim (fun h => h.2.2)
      fun h => absurd ⟨hdup, hexec⟩ h.1
  · intro hended
    obtain ⟨trace, e, ⟨houter, rfl⟩, hcompiler, hend⟩ := hended
    obtain ⟨hsandbox, argv, hphase, hfork, rfl⟩ := runSandboxChild_compiler_eq_some_iff.mp hcompiler
    rcases @compileSubChild_cases w argv (compilePhase_ne_nil hphase) with ⟨hdup, hexec, hsub⟩ | ⟨_, hsub⟩
    · rw [hsub] at hend
      exact ⟨⟨by rw [hphase]; rfl, houter, hsandbox, hfork, hdup, hexec, by simp⟩, hend⟩
    · rw [hsub] at hend
      cases hend

/-- Behind the fork the job stays free of ambiguity exactly when its trace does. -/
theorem sentinelUnambiguous_iff {w : ChildWorld} {compileArgv : Option (List CString)}
    {runArgv : List CString} {hasCachedBinary : Bool} :
    SentinelUnambiguous w compileArgv runArgv hasCachedBinary ↔
      ∀ trace, (runChild w compileArgv runArgv hasCachedBinary).2 = some trace →
        ¬ trace.Executed compileFailedEnd ∧ ∀ e, trace.compiler = some e → e.isDecodable = true := by
  constructor
  · intro hends trace htrace
    obtain ⟨hprogram, hcompiler⟩ := hends
    refine ⟨fun hexec => ?_, fun e he => ?_⟩
    · obtain ⟨_, rfl⟩ := runChild_snd_eq_some_iff.mp htrace
      have hend : w.programEnd = compileFailedEnd := by
        rcases runSandboxChild_cases w compileArgv runArgv hasCachedBinary with h | h | h
        · rcases h.2.2 with ⟨e, he⟩ | he
          · rw [ChildTrace.Executed, he] at hexec
            cases hexec
          · exact ChildStop.exec.inj (he.symm.trans hexec)
        · rw [ChildTrace.Executed, h.2.2] at hexec
          cases hexec
        · obtain ⟨e, he⟩ := h.2.2
          rw [ChildTrace.Executed, he] at hexec
          cases hexec
      rw [← hend] at hexec
      exact hprogram (reachesProgram_iff.mpr ⟨_, htrace, hexec⟩) hend
    · by_contra hdecodable
      obtain ⟨hreaches, hend⟩ := reachesCompiler_undecodable_iff.mpr
        ⟨trace, e, htrace, he, Bool.eq_false_iff.mpr hdecodable⟩
      rw [hcompiler hreaches] at hend
      cases hend
  · intro h
    refine ⟨fun hreaches hend => ?_, fun hreaches => ?_⟩
    · obtain ⟨trace, htrace, hexec⟩ := reachesProgram_iff.mp hreaches
      rw [hend] at hexec
      exact (h trace htrace).1 hexec
    · by_contra hend
      obtain ⟨trace, e, htrace, he, hundecodable⟩ := (@reachesCompiler_undecodable_iff w compileArgv
        runArgv hasCachedBinary).mp ⟨hreaches, Bool.eq_false_iff.mpr hend⟩
      rw [(h trace htrace).2 e he] at hundecodable
      cases hundecodable

/-- A propagated error is not mistaken for the sentinel. -/
theorem ChildStop.error_ending_ne (e : SandboxError) : (ChildStop.error e).ending ≠ compileFailedEnd := by
  change ProcessEnd.exit 127 ≠ compileFailedEnd
  decide

/-- The sentinel reaches the parent exactly when PID 1 ended with it. -/
theorem runChild_sentinel_iff {w : ChildWorld} {compileArgv : Option (List CString)}
    {runArgv : List CString} {hasCachedBinary : Bool} :
    (runChild w compileArgv runArgv hasCachedBinary).1 = compileFailedEnd ↔
      ∃ trace, (runChild w compileArgv runArgv hasCachedBinary).2 = some trace ∧
        trace.stop.ending = compileFailedEnd := by
  unfold runChild
  cases firstFailure w outerSetup with
  | some e => simp [ChildStop.error_ending_ne e]
  | none => simp [relayGrandchildExit_sentinel_iff]

/-- A wait that did not kill the child reports the child's own end. -/
theorem waitWithTimeout_not_killed {ending : ProcessEnd} {event : WaitEvent} {status : WaitStatus}
    (h : waitWithTimeout ending event = .ok (status, false)) : waitpid ending = some status := by
  cases event with
  | polled =>
    cases hwait : waitpid ending with
    | some reply =>
      simp only [waitWithTimeout, hwait, Except.ok.injEq, Prod.mk.injEq, and_true] at h
      rw [h]
    | none => simp [waitWithTimeout, hwait] at h
  | deadline killed fired =>
    simp only [waitWithTimeout] at h
    split at h
    · simp at h
    · cases h
  | echild => cases h
  | pollError e => cases h

/-- The reported status carries the sentinel exactly when the process ended with it. -/
theorem isCompileFailed_of_waitpid {ending : ProcessEnd} {status : WaitStatus}
    (h : waitpid ending = some status) : status.isCompileFailed = true ↔ ending = compileFailedEnd := by
  cases ending with
  | exited code =>
    cases h
    simp only [WaitStatus.isCompileFailed, compileFailedExitCode, compileFailedEnd, ProcessEnd.exit,
      beq_iff_eq, ProcessEnd.exited.injEq, Fin.ext_iff, Fin.val_ofNat]
    omega
  | signaled sig =>
    simp only [waitpid] at h
    split at h
    · cases h
      simp [WaitStatus.isCompileFailed, compileFailedEnd, ProcessEnd.exit]
    · cases h

/-- Without an OOM event and a wall kill, triage reports a compile error exactly for a failed
compile, and keeps the output of every executed program, if and only if the sentinel is
unambiguous. -/
theorem classify_compileError_iff_compileFailed {w : World} {spec : LanguageSpec} {limits : ResourceLimits}
    {hasCachedBinary : Bool} {raw : RawOutcome} {cgroup : CgroupReading} {cpuLimit wallElapsed : Duration}
    {result : SandboxResult} (hrun : run w spec limits hasCachedBinary = .ok raw)
    (hoom : cgroup.oomKilled = false) (hwall : raw.killedByWallTimeout = false)
    (hresult : classify raw cgroup cpuLimit wallElapsed = .ok result) :
    ((result.status = .compileError ↔ CompileFailed (forkedChild w spec limits hasCachedBinary)) ∧
        (ProgramExecuted (forkedChild w spec limits hasCachedBinary) →
          result.stdout = raw.stdout ∧ result.stderr = raw.stderr)) ↔
      SentinelUnambiguous w.child (buildCompileArgv spec limits) (buildArgv spec limits) hasCachedBinary := by
  obtain ⟨_, htriaged, hstatus, hkept, _⟩ := classify_spec raw cgroup cpuLimit wallElapsed
  rw [hresult] at htriaged
  cases htriaged
  have hwait := run_ok hrun
  rw [hwall] at hwait
  have herror : result.status = .compileError ↔
      (forkedChild w spec limits hasCachedBinary).1 = compileFailedEnd := by
    rw [hstatus, classifyStatus_compileError_iff hoom hwall]
    exact isCompileFailed_of_waitpid (waitWithTimeout_not_killed hwait)
  rw [sentinelUnambiguous_iff]
  unfold forkedChild at herror ⊢
  rw [runChild_sentinel_iff] at herror
  cases htrace : (runChild w.child (buildCompileArgv spec limits) (buildArgv spec limits) hasCachedBinary).2 with
  | none => simp [herror, htrace, CompileFailed, ProgramExecuted]
  | some trace =>
    simp only [htrace, Option.some.injEq, exists_eq_left'] at herror
    simp only [CompileFailed, ProgramExecuted, htrace, Option.some.injEq, exists_eq_left', forall_eq']
    obtain ⟨_, rfl⟩ := runChild_snd_eq_some_iff.mp htrace
    rcases runSandboxChild_cases w.child (buildCompileArgv spec limits) (buildArgv spec limits)
      hasCachedBinary with ⟨hpassed, hdecodable, hstop⟩ | ⟨hfailed, hdecodable, hstop⟩ |
        ⟨hfailed, hundecodable, e, hstop⟩
    · simp only [hpassed, iff_false, herror]
      refine ⟨fun h => ⟨fun hexec => h.1 (by rw [hexec]; rfl), hdecodable⟩, fun h => ?_⟩
      have hsentinel : ¬ (runSandboxChild w.child (buildCompileArgv spec limits) (buildArgv spec limits)
          hasCachedBinary).stop.ending = compileFailedEnd := by
        intro hend
        rcases hstop with ⟨e, he⟩ | hexec
        · rw [he] at hend
          exact ChildStop.error_ending_ne e hend
        · rw [hexec] at hend
          exact h.1 (hexec.trans (congrArg ChildStop.exec hend))
      exact ⟨hsentinel, fun _ => hkept (mt herror.mp hsentinel)⟩
    · have hcompileError : result.status = .compileError := herror.mpr (by rw [hstop]; rfl)
      have hnotProgram : ∀ p, ¬ (runSandboxChild w.child (buildCompileArgv spec limits)
          (buildArgv spec limits) hasCachedBinary).Executed p := by
        intro p hexec
        rw [ChildTrace.Executed, hstop] at hexec
        cases hexec
      simp only [hcompileError, hfailed, hnotProgram, not_false_eq_true, true_and]
      exact iff_of_true (fun ⟨_, program, rfl, hexec⟩ => absurd hexec (hnotProgram program)) hdecodable
    · have hcompileError : ¬ result.status = .compileError := by
        rw [herror, hstop]
        exact ChildStop.error_ending_ne e
      obtain ⟨compiler, hcompiler, _⟩ := hfailed
      refine iff_of_false (fun h => hcompileError (h.1.mpr ⟨compiler, hcompiler, ‹_›⟩)) fun h => ?_
      have hdecoded := h.2 compiler hcompiler
      rw [hundecodable compiler hcompiler] at hdecoded
      cases hdecoded

/-- An interpreted program that prints a line and exits with the given code. -/
def World.printing (code : Fin 256) : World where
  __ := World.ordinary {
    fails := fun _ => none
    compilerEnd := .success
    programEnd := .exited code
    raiseIneffective := fun _ => false }
  stdout := [111, 107, 10]

/-- What the parent collects from that program. -/
def RawOutcome.printing (code : Fin 256) : RawOutcome where
  exitStatus := .exited code.val
  stdout := [111, 107, 10]
  stderr := []
  compileStderr := []
  compiledBinary := []
  killedByWallTimeout := false
  runPhaseMemoryKb := none
  compileCpuTime := none
  compileWallTime := none

/-- A program that exits with 3 keeps its output and is no compile error. -/
theorem classify_compileError_iff_compileFailed_three :
    run (World.printing 3) (SandboxJob.interpreted ["python3"]).language .default false =
        .ok (RawOutcome.printing 3) ∧
      ∃ result, classify (RawOutcome.printing 3) ⟨0, 0, false⟩ 2000000000 0 = .ok result ∧
        (((result.status = .compileError ↔
            CompileFailed (forkedChild (World.printing 3) (SandboxJob.interpreted ["python3"]).language .default false)) ∧
          (ProgramExecuted
              (forkedChild (World.printing 3) (SandboxJob.interpreted ["python3"]).language .default false) →
            result.stdout = [111, 107, 10] ∧ result.stderr = [])) ↔
        SentinelUnambiguous (World.printing 3).child
          (buildCompileArgv (SandboxJob.interpreted ["python3"]).language .default)
          (buildArgv (SandboxJob.interpreted ["python3"]).language .default) false) :=
  ⟨rfl, _, rfl, @classify_compileError_iff_compileFailed (World.printing 3)
    (SandboxJob.interpreted ["python3"]).language .default false (RawOutcome.printing 3) ⟨0, 0, false⟩
    2000000000 0 _ rfl rfl rfl rfl⟩

/-- A program that exits with 253 is reported as a compile error of an interpreted language, and
the line it printed is discarded. -/
theorem sentinelExit_isCompileError :
    run (World.printing 253) (SandboxJob.interpreted ["python3"]).language .default false =
        .ok (RawOutcome.printing 253) ∧
      ∃ result, classify (RawOutcome.printing 253) ⟨0, 0, false⟩ 2000000000 0 = .ok result ∧
        result.status = .compileError ∧ result.stdout = [] ∧
        ¬ CompileFailed
          (forkedChild (World.printing 253) (SandboxJob.interpreted ["python3"]).language .default false) := by
  refine ⟨rfl, _, rfl, rfl, rfl, ?_⟩
  intro hcompileFailed
  obtain ⟨trace, htrace, e, hcompiler, _⟩ := hcompileFailed
  cases htrace
  cases hcompiler

end ZeroCode.Sandbox
