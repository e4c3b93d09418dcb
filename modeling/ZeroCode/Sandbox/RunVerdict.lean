import ZeroCode.Sandbox.CompileVerdict

/-!
# Verdicts on a compile phase that never ended

A job that compiles and never passes the barrier has no run phase. Triage recognises
such an outcome only by the compile-failure sentinel, and only after the OOM event and
the wall-clock kill had their turn: both outrank the sentinel, and both keep the raw
exit code. An outcome without the sentinel is charged the CPU of the compiler as if the
program had used it.
-/

namespace ZeroCode.Sandbox

open ZeroCode.Core ZeroCode.Foundation

/-- The status says that the program exceeded a time or memory budget. -/
def isRunLimit : Status → Bool
  | .timeLimitExceeded _ | .memoryLimitExceeded => true
  | _ => false

/-- A collected outcome of a job that compiles and whose barrier never fired. -/
structure UnfinishedCompile (w : World) (job : SandboxJob) (raw : RawOutcome) : Prop where
  compiles : job.language.willCompile (hasCachedBinary w job) = true
  barrier : barrierFired (forkedChild w job.language job.limits (hasCachedBinary w job)).2 w.wait = false
  collected : run w job.language job.limits (hasCachedBinary w job) = .ok raw

/-- Triage returns a status that is no run-limit verdict. -/
def JudgesNoRunLimit (triaged : Except SandboxError SandboxResult) : Prop :=
  ∃ result, triaged = .ok result ∧ isRunLimit result.status = false

/-- Triage returns neither the sentinel as an exit code nor a status that carries it. -/
def HidesSentinel (triaged : Except SandboxError SandboxResult) : Prop :=
  ∃ result, triaged = .ok result ∧ result.exitCode = none ∧ result.status ≠ .nonZeroExit compileFailedExitCode

/-- An outcome without the barrier carries no sample of the compile phase. -/
theorem run_compileCpuTime {w : World} {spec : LanguageSpec} {limits : ResourceLimits} {cached : Bool}
    {raw : RawOutcome} (h : run w spec limits cached = .ok raw)
    (hbarrier : barrierFired (forkedChild w spec limits cached).2 w.wait = false) :
    raw.compileCpuTime = none := by
  unfold run at h
  obtain ⟨_, _, h⟩ := bind_eq_ok_iff.mp h
  obtain ⟨_, _, h⟩ := bind_eq_ok_iff.mp h
  obtain ⟨_, _, h⟩ := bind_eq_ok_iff.mp h
  obtain ⟨_, _, h⟩ := bind_eq_ok_iff.mp h
  obtain ⟨_, _, h⟩ := bind_eq_ok_iff.mp h
  obtain ⟨_, _, h⟩ := bind_eq_ok_iff.mp h
  cases h
  show (if barrierFired (forkedChild w spec limits cached).2 w.wait then some w.compileCpu else none) = none
  rw [hbarrier]
  rfl

/-- The sentinel is one exit status. -/
theorem isCompileFailed_iff (status : WaitStatus) :
    status.isCompileFailed = true ↔ status = .exited compileFailedExitCode := by
  cases status <;> simp [WaitStatus.isCompileFailed]

/-- The exit status alone never yields a run-limit verdict. -/
theorem isRunLimit_exitVerdict (status : WaitStatus) : isRunLimit (exitVerdict status).1 = false := by
  cases status with
  | exited code => by_cases hzero : code = 0 <;> simp [exitVerdict, hzero, isRunLimit]
  | signaled sig => rfl
  | other => rfl

/-- The decision tree ends in a run-limit verdict unless neither kill was reported and either
the sentinel or the CPU budget stops it. -/
theorem isRunLimit_classifyStatus_iff (raw : RawOutcome) (cgroup : CgroupReading) (cpuLimit : Duration) :
    isRunLimit (classifyStatus raw cgroup cpuLimit) = false ↔
      cgroup.oomKilled = false ∧ raw.killedByWallTimeout = false ∧
        (raw.exitStatus = .exited compileFailedExitCode ∨ billedCpuTime raw cgroup ≤ cpuLimit) := by
  unfold classifyStatus
  by_cases hoom : cgroup.oomKilled = true
  · simp [hoom, isRunLimit]
  by_cases hwall : raw.killedByWallTimeout = true
  · simp [hwall, hoom, isRunLimit]
  have hfree : cgroup.oomKilled = false ∧ raw.killedByWallTimeout = false :=
    ⟨eq_false_of_ne_true hoom, eq_false_of_ne_true hwall⟩
  rw [if_neg hoom, if_neg hwall, ← isCompileFailed_iff]
  by_cases hsentinel : raw.exitStatus.isCompileFailed = true
  · rw [if_pos hsentinel]
    exact ⟨fun _ => ⟨hfree.1, hfree.2, Or.inl hsentinel⟩, fun _ => rfl⟩
  by_cases hcpu : cpuLimit < billedCpuTime raw cgroup
  · rw [if_neg hsentinel, if_pos hcpu]
    constructor
    · intro h
      cases h
    · intro h
      rcases h.2.2 with hfailed | hwithin
      · exact absurd hfailed hsentinel
      · exact absurd hcpu (not_lt.mpr hwithin)
  · rw [if_neg hsentinel, if_neg hcpu]
    exact ⟨fun _ => ⟨hfree.1, hfree.2, Or.inr (not_lt.mp hcpu)⟩, fun _ => isRunLimit_exitVerdict _⟩

/-- A job of a compiled language, with the default limits. -/
def SandboxJob.compiled : SandboxJob where
  token := 0
  language := ⟨50, "main.c", some ["/usr/bin/gcc", "main.c", "-o", "prog"], ["/box/prog"], [], none, none⟩
  sourceCode := []
  stdin := []
  limits := .default
  cachedBinary := none

/-- The world of a compiler that the kernel kills for its memory. -/
def World.compilerOutOfMemory : World :=
  { World.ordinary {
      fails := fun _ => none
      compilerEnd := .signaled 9
      programEnd := .success
      raiseIneffective := fun _ => false } with
    reading := ⟨300000000, 128 * 1024 * 1024, true⟩ }

/-- The outcome of a compiler that the kernel killed for its memory. -/
def compilerOutOfMemory : RawOutcome :=
  ⟨.exited compileFailedExitCode, [], [], [], [], false, none, none, none⟩

/-- That outcome is collected from a job that compiles and never passes its barrier. -/
theorem unfinishedCompile_compilerOutOfMemory :
    UnfinishedCompile .compilerOutOfMemory .compiled compilerOutOfMemory where
  compiles := rfl
  barrier := rfl
  collected := rfl

/-- A compile phase that never ended escapes the run-limit verdicts exactly without an OOM
event, without a wall kill, and with the sentinel or a compiler within the CPU limit. -/
theorem classify_unfinishedCompile_iff {w : World} {job : SandboxJob} {raw : RawOutcome}
    (h : UnfinishedCompile w job raw) (cgroup : CgroupReading) (cpuLimit wallElapsed : Duration) :
    JudgesNoRunLimit (classify raw cgroup cpuLimit wallElapsed) ↔
      cgroup.oomKilled = false ∧ raw.killedByWallTimeout = false ∧
        (raw.exitStatus = .exited compileFailedExitCode ∨ cgroup.cpuTime ≤ cpuLimit) := by
  obtain ⟨result, hresult, hstatus, _⟩ := classify_spec raw cgroup cpuLimit wallElapsed
  have hbilled : billedCpuTime raw cgroup = cgroup.cpuTime := by
    rw [billedCpuTime, run_compileCpuTime h.collected h.barrier]
  rw [← hbilled, ← isRunLimit_classifyStatus_iff, ← hstatus, JudgesNoRunLimit, hresult]
  simp

/-- The killed compiler, by a reading without the OOM event, keeps its compile error. -/
theorem classify_unfinishedCompile_iff_plainReading :
    UnfinishedCompile .compilerOutOfMemory .compiled compilerOutOfMemory ∧
      JudgesNoRunLimit (classify compilerOutOfMemory ⟨300000000, 0, false⟩ 200000000 340000000) :=
  ⟨unfinishedCompile_compilerOutOfMemory,
    (classify_unfinishedCompile_iff unfinishedCompile_compilerOutOfMemory ⟨300000000, 0, false⟩
      200000000 340000000).mpr ⟨rfl, rfl, Or.inl rfl⟩⟩

/-- A compiler killed for its memory is reported as a program that exceeded the memory limit. -/
theorem compilerOutOfMemory_isRunLimit :
    ¬ ∀ w job raw, UnfinishedCompile w job raw → ∀ cgroup cpuLimit wallElapsed,
      JudgesNoRunLimit (classify raw cgroup cpuLimit wallElapsed) := by
  intro h
  obtain ⟨result, hresult, hstatus⟩ :=
    h _ _ _ unfinishedCompile_compilerOutOfMemory World.compilerOutOfMemory.reading 2000000000 340000000
  cases hresult
  cases hstatus

/-- The sentinel stays internal exactly when no OOM event and no wall kill outranks it. -/
theorem classify_hidesSentinel_iff {raw : RawOutcome} (h : raw.exitStatus = .exited compileFailedExitCode)
    (cgroup : CgroupReading) (cpuLimit wallElapsed : Duration) :
    HidesSentinel (classify raw cgroup cpuLimit wallElapsed) ↔
      cgroup.oomKilled = false ∧ raw.killedByWallTimeout = false := by
  have hsentinel : raw.exitStatus.isCompileFailed = true := (isCompileFailed_iff _).mpr h
  unfold HidesSentinel classify
  by_cases hoom : cgroup.oomKilled = true
  · simp [hoom, finish, h]
  by_cases hwall : raw.killedByWallTimeout = true
  · simp [hoom, hwall, finish, h]
  rw [if_neg hoom, if_neg hwall, if_pos hsentinel]
  simp [hoom, hwall, finish]

/-- A failed compile without a kill reports no exit code. -/
theorem classify_hidesSentinel_iff_plainReading :
    compilerOutOfMemory.exitStatus = .exited compileFailedExitCode ∧
      HidesSentinel (classify compilerOutOfMemory ⟨320000000, 0, false⟩ 200000000 340000000) :=
  ⟨rfl, (classify_hidesSentinel_iff rfl ⟨320000000, 0, false⟩ 200000000 340000000).mpr ⟨rfl, rfl⟩⟩

/-- The sentinel of a compiler killed for its memory reaches the client as an exit code. -/
theorem compilerOutOfMemory_leaksSentinel :
    ¬ ∀ raw, (∃ w job, UnfinishedCompile w job raw ∧
        CompileFailed (forkedChild w job.language job.limits (hasCachedBinary w job))) →
      raw.exitStatus = .exited compileFailedExitCode → ∀ cgroup cpuLimit wallElapsed,
        HidesSentinel (classify raw cgroup cpuLimit wallElapsed) := by
  intro h
  have hfailed : CompileFailed (forkedChild .compilerOutOfMemory SandboxJob.compiled.language
      SandboxJob.compiled.limits (hasCachedBinary .compilerOutOfMemory .compiled)) :=
    ⟨_, rfl, .signaled 9, rfl, by simp⟩
  obtain ⟨result, hresult, hcode, _⟩ :=
    h _ ⟨_, _, unfinishedCompile_compilerOutOfMemory, hfailed⟩ rfl World.compilerOutOfMemory.reading
      2000000000 340000000
  cases hresult
  cases hcode

end ZeroCode.Sandbox
