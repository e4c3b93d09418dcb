import ZeroCode.Sandbox.Execute

/-!
# Harness faults behind the fork

A step that fails before the compiler or the program could be executed is a fault of
the harness. Each of them ends its process with an exit code: 127 for the setup and the
run phase, the compile-failure sentinel for the compile sub-child. Both look like the
exit of a submitted program, so the worker receives a judgement about code that never
ran. A fault stays out of the verdicts only when the parent's own calls fail as well.
-/

namespace ZeroCode.Sandbox

open ZeroCode.Core

/-- The fallible steps of the two phases. The run phase is out of reach when the compiler
itself fails. -/
def phaseSteps (w : ChildWorld) (compileArgv : Option (List CString)) (hasCachedBinary : Bool) :
    List SetupStep :=
  match compilePhase compileArgv hasCachedBinary with
  | none => [.runExec]
  | some _ =>
    [.compileFork, .compileDup2Stderr, .compileExec] ++ if w.compilerEnd = .success then [.runExec] else []

/-- The step fails; the run phase also fails without a command to execute. -/
def StepFails (w : ChildWorld) (runArgv : List CString) (step : SetupStep) : Prop :=
  (w.fails step).isSome = true ∨ (step = .runExec ∧ runArgv = [])

/-- One of the steps a job goes through, as long as none of them fails, does fail. -/
def HarnessFault (w : ChildWorld) (compileArgv : Option (List CString)) (runArgv : List CString)
    (hasCachedBinary : Bool) : Prop :=
  ∃ step ∈ outerSetup ++ (sandboxSetup ++ phaseSteps w compileArgv hasCachedBinary),
    StepFails w runArgv step

/-- A harness fault of a job, given its language, its limits and the cache state. -/
def World.HarnessFault (w : World) (job : SandboxJob) : Prop :=
  Sandbox.HarnessFault w.child (buildCompileArgv job.language job.limits) (buildArgv job.language job.limits)
    (hasCachedBinary w job)

/-- Steps that go through before the phases contain no failing one. -/
theorem firstFailure_none {w : ChildWorld} {runArgv : List CString} {steps : List SetupStep}
    {step : SetupStep} (h : firstFailure w steps = none) (hexec : SetupStep.runExec ∉ steps)
    (hmem : step ∈ steps) : ¬ StepFails w runArgv step := by
  intro hstep
  rcases hstep with hfails | ⟨rfl, _⟩
  · rw [firstFailure, List.findSome?_eq_none_iff] at h
    have hnone := h step hmem
    rw [Option.map_eq_none_iff] at hnone
    rw [hnone] at hfails
    cases hfails
  · exact hexec hmem

/-- Relaying keeps an exit code. -/
theorem relayGrandchildExit_exited (w : ChildWorld) (code : Fin 256) :
    relayGrandchildExit w (.exited code) = .exited code := by
  simp [relayGrandchildExit, waitpid, ProcessEnd.exit]

/-- A run phase that cannot execute its program propagates an error. -/
theorem runPhase_of_fault {w : ChildWorld} {runArgv : List CString}
    (h : StepFails w runArgv .runExec) : ∃ e, runPhase w runArgv = .error e := by
  unfold runPhase
  split_ifs with hempty
  · exact ⟨_, rfl⟩
  · rcases h with hfails | ⟨_, rfl⟩
    · obtain ⟨e, he⟩ := Option.isSome_iff_exists.mp hfails
      rw [he]
      exact ⟨_, rfl⟩
    · exact absurd rfl hempty

/-- A sub-child that never becomes the compiler exits with 127. -/
theorem compileSubChild_of_fault {w : ChildWorld} {argv : List CString}
    (h : (w.fails .compileDup2Stderr).isSome = true ∨ (w.fails .compileExec).isSome = true) :
    compileSubChild w argv = .exit 127 := by
  unfold compileSubChild
  split_ifs with hdup hempty hexec
  · rfl
  · rfl
  · rfl
  · exact absurd h (not_or.mpr ⟨hdup, hexec⟩)

/-- A fault in one of the phases stops PID 1 with an error or the sentinel. -/
theorem runPhases_of_fault {w : ChildWorld} {compileArgv : Option (List CString)}
    {runArgv : List CString} {hasCachedBinary : Bool} {step : SetupStep}
    (hmem : step ∈ phaseSteps w compileArgv hasCachedBinary) (hfails : StepFails w runArgv step) :
    (∃ e, (runPhases w compileArgv runArgv hasCachedBinary).stop = .error e) ∨
      (runPhases w compileArgv runArgv hasCachedBinary).stop = .exit compileFailedExitCode := by
  unfold phaseSteps at hmem
  unfold runPhases
  cases hphase : compilePhase compileArgv hasCachedBinary with
  | none =>
    rw [hphase] at hmem
    rw [List.mem_singleton.mp hmem] at hfails
    exact Or.inl (runPhase_of_fault hfails)
  | some argv =>
    rw [hphase] at hmem
    simp only [runCompilePhase]
    cases hfork : w.fails .compileFork with
    | some e => exact Or.inl ⟨_, rfl⟩
    | none =>
      have hcase : compileSubChild w argv = .exit 127 ∨
          (compileSubChild w argv = .success ∧ StepFails w runArgv .runExec) := by
        by_cases hsub : (w.fails .compileDup2Stderr).isSome = true ∨ (w.fails .compileExec).isSome = true
        · exact Or.inl (compileSubChild_of_fault hsub)
        · rw [not_or] at hsub
          by_cases hzero : w.compilerEnd = .success
          · simp only [hzero, if_true, List.mem_append, List.mem_cons, List.not_mem_nil, or_false] at hmem
            refine Or.inr ⟨?_, ?_⟩
            · rw [compileSubChild, if_neg hsub.1, if_neg, if_neg hsub.2, hzero]
              simpa using compilePhase_ne_nil hphase
            · rcases hmem with (rfl | rfl | rfl) | rfl
              · simp [StepFails, hfork] at hfails
              · exact absurd (hfails.resolve_right (by simp)) hsub.1
              · exact absurd (hfails.resolve_right (by simp)) hsub.2
              · exact hfails
          · simp only [hzero, if_false, List.append_nil, List.mem_cons, List.not_mem_nil, or_false] at hmem
            rcases hmem with rfl | rfl | rfl
            · simp [StepFails, hfork] at hfails
            · exact absurd (hfails.resolve_right (by simp)) hsub.1
            · exact absurd (hfails.resolve_right (by simp)) hsub.2
      rcases hcase with hsub | ⟨hsub, hrun⟩
      · rw [hsub]
        exact Or.inr rfl
      · rw [hsub]
        exact Or.inl (runPhase_of_fault hrun)

/-- Behind the fork every harness fault becomes exit code 127 or the compile-failure sentinel. -/
theorem runChild_of_harnessFault {w : ChildWorld} {compileArgv : Option (List CString)}
    {runArgv : List CString} {hasCachedBinary : Bool}
    (h : HarnessFault w compileArgv runArgv hasCachedBinary) :
    (runChild w compileArgv runArgv hasCachedBinary).1 = .exit 127 ∨
      (runChild w compileArgv runArgv hasCachedBinary).1 = compileFailedEnd := by
  obtain ⟨step, hmem, hfails⟩ := h
  unfold runChild
  cases houter : firstFailure w outerSetup with
  | some e => exact Or.inl rfl
  | none =>
    unfold runSandboxChild
    cases hsandbox : firstFailure w sandboxSetup with
    | some e => exact Or.inl (relayGrandchildExit_exited w _)
    | none =>
      rcases List.mem_append.mp hmem with hstep | hmem
      · exact absurd hfails (firstFailure_none houter (by decide) hstep)
      rcases List.mem_append.mp hmem with hstep | hstep
      · exact absurd hfails (firstFailure_none hsandbox (by decide) hstep)
      dsimp only
      rcases runPhases_of_fault hstep hfails with ⟨e, hstop⟩ | hstop
      · rw [hstop]
        exact Or.inl (relayGrandchildExit_exited w _)
      · rw [hstop]
        exact Or.inr (relayGrandchildExit_exited w _)

end ZeroCode.Sandbox
