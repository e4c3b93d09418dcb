import ZeroCode.Sandbox.Outcome

/-!
# Triage of a finished sandbox

The decision tree that turns a raw outcome and the cgroup readings into a result. An
OOM event outranks a wall-clock kill, which outranks the compile-failure sentinel,
which outranks the CPU budget; only then does the exit status itself decide. Triage
always returns a result, and its status is a judgement about the code unless the
exit status is none that a finished process can have.
-/

namespace ZeroCode.Sandbox

open ZeroCode.Core

/-- Assemble a result from the raw outcome and the decided status. -/
def finish (raw : RawOutcome) (cpuTime wallTime : Duration) (memoryKb : ℕ) (status : Status)
    (signal : Option Signal) : SandboxResult where
  status := status
  compileTime := raw.compileWallTime.getD 0
  stdout := raw.stdout
  stderr := raw.stderr
  compileOutput := if raw.compileStderr.isEmpty then none else some raw.compileStderr
  exitCode := match raw.exitStatus with
    | .exited code => some code
    | _ => none
  signal := signal
  cpuTime := cpuTime
  wallTime := wallTime
  memoryKb := memoryKb
  compiledBinary := none

/-- The exit status carries the compile-failure sentinel. -/
def WaitStatus.isCompileFailed : WaitStatus → Bool
  | .exited code => code == compileFailedExitCode
  | _ => false

/-- The CPU charged to the submission: the part the compiler burned is subtracted when known. -/
def billedCpuTime (raw : RawOutcome) (cgroup : CgroupReading) : Duration :=
  match raw.compileCpuTime with
  | some compileCpu => cgroup.cpuTime - compileCpu
  | none => cgroup.cpuTime

/-- The status and signal of a run that used more CPU than its limit. -/
def cpuOverrun : WaitStatus → Status × Option Signal
  | .signaled sig => (.timeLimitExceeded .cpu, some (Signal.fromRaw sig))
  | _ => (.timeLimitExceeded .cpu, none)

/-- The status, signal and exit code of a run within its limits. -/
def exitVerdict : WaitStatus → Status × Option Signal × Option Int
  | .exited code => if code = 0 then (.accepted, none, some code) else (.nonZeroExit code, none, some code)
  | .signaled sig => (.runtimeError (Signal.fromRaw sig), some (Signal.fromRaw sig), none)
  | .other => (.internalError, none, none)

/-- Choose the highest-confidence status of a finished sandbox. -/
def classify (raw : RawOutcome) (cgroup : CgroupReading) (cpuLimit wallElapsed : Duration) :
    Except SandboxError SandboxResult :=
  let cpuTime := billedCpuTime raw cgroup
  let memoryKb := cgroup.memoryPeakBytes / 1024 % 2 ^ 32
  if cgroup.oomKilled then
    .ok (finish raw cpuTime wallElapsed memoryKb .memoryLimitExceeded none)
  else if raw.killedByWallTimeout then
    .ok (finish raw cpuTime wallElapsed memoryKb (.timeLimitExceeded .wall) (some .sigkill))
  else if raw.exitStatus.isCompileFailed then
    .ok { finish raw cpuTime wallElapsed memoryKb .compileError none with
      stdout := [], stderr := [], exitCode := none, compileTime := wallElapsed, cpuTime := 0 }
  else if cpuLimit < cpuTime then
    let (status, signal) := cpuOverrun raw.exitStatus
    .ok (finish raw cpuTime wallElapsed memoryKb status signal)
  else
    let (status, signal, exitCode) := exitVerdict raw.exitStatus
    .ok { finish raw cpuTime wallElapsed memoryKb status signal with exitCode := exitCode }

/-- The branches of triage, each with the result it returns. -/
inductive Triaged (raw : RawOutcome) (cgroup : CgroupReading) (cpuLimit wallElapsed : Duration) : SandboxResult → Prop
  | oom (hoom : cgroup.oomKilled = true) : Triaged raw cgroup cpuLimit wallElapsed
      (finish raw (billedCpuTime raw cgroup) wallElapsed (cgroup.memoryPeakBytes / 1024 % 2 ^ 32)
        .memoryLimitExceeded none)
  | wall (hoom : cgroup.oomKilled = false) (hwall : raw.killedByWallTimeout = true) :
      Triaged raw cgroup cpuLimit wallElapsed
        (finish raw (billedCpuTime raw cgroup) wallElapsed (cgroup.memoryPeakBytes / 1024 % 2 ^ 32)
          (.timeLimitExceeded .wall) (some .sigkill))
  | sentinel (hoom : cgroup.oomKilled = false) (hwall : raw.killedByWallTimeout = false)
      (hsentinel : raw.exitStatus.isCompileFailed = true) : Triaged raw cgroup cpuLimit wallElapsed
        { finish raw (billedCpuTime raw cgroup) wallElapsed (cgroup.memoryPeakBytes / 1024 % 2 ^ 32)
            .compileError none with
          stdout := [], stderr := [], exitCode := none, compileTime := wallElapsed, cpuTime := 0 }
  | cpu (hoom : cgroup.oomKilled = false) (hwall : raw.killedByWallTimeout = false)
      (hsentinel : raw.exitStatus.isCompileFailed = false) (hcpu : cpuLimit < billedCpuTime raw cgroup) :
      Triaged raw cgroup cpuLimit wallElapsed
        (finish raw (billedCpuTime raw cgroup) wallElapsed (cgroup.memoryPeakBytes / 1024 % 2 ^ 32)
          (cpuOverrun raw.exitStatus).1 (cpuOverrun raw.exitStatus).2)
  | ended (hoom : cgroup.oomKilled = false) (hwall : raw.killedByWallTimeout = false)
      (hsentinel : raw.exitStatus.isCompileFailed = false) (hcpu : billedCpuTime raw cgroup ≤ cpuLimit) :
      Triaged raw cgroup cpuLimit wallElapsed
        { finish raw (billedCpuTime raw cgroup) wallElapsed (cgroup.memoryPeakBytes / 1024 % 2 ^ 32)
            (exitVerdict raw.exitStatus).1 (exitVerdict raw.exitStatus).2.1 with
          exitCode := (exitVerdict raw.exitStatus).2.2 }

/-- Triage has an answer for every outcome, that of one of its branches. -/
theorem exists_triaged (raw : RawOutcome) (cgroup : CgroupReading) (cpuLimit wallElapsed : Duration) :
    ∃ result, classify raw cgroup cpuLimit wallElapsed = .ok result ∧
      Triaged raw cgroup cpuLimit wallElapsed result := by
  unfold classify
  by_cases hoom : cgroup.oomKilled = true
  · exact ⟨_, if_pos hoom, .oom hoom⟩
  by_cases hwall : raw.killedByWallTimeout = true
  · exact ⟨_, by rw [if_neg hoom, if_pos hwall], .wall (eq_false_of_ne_true hoom) hwall⟩
  by_cases hsentinel : raw.exitStatus.isCompileFailed = true
  · exact ⟨_, by rw [if_neg hoom, if_neg hwall, if_pos hsentinel],
      .sentinel (eq_false_of_ne_true hoom) (eq_false_of_ne_true hwall) hsentinel⟩
  by_cases hcpu : cpuLimit < billedCpuTime raw cgroup
  · exact ⟨_, by rw [if_neg hoom, if_neg hwall, if_neg hsentinel, if_pos hcpu],
      .cpu (eq_false_of_ne_true hoom) (eq_false_of_ne_true hwall) (eq_false_of_ne_true hsentinel) hcpu⟩
  · exact ⟨_, by rw [if_neg hoom, if_neg hwall, if_neg hsentinel, if_neg hcpu],
      .ended (eq_false_of_ne_true hoom) (eq_false_of_ne_true hwall) (eq_false_of_ne_true hsentinel) (not_lt.mp hcpu)⟩

/-- The status triage decides on, as a function of what it consults. -/
def classifyStatus (raw : RawOutcome) (cgroup : CgroupReading) (cpuLimit : Duration) : Status :=
  if cgroup.oomKilled then .memoryLimitExceeded
  else if raw.killedByWallTimeout then .timeLimitExceeded .wall
  else if raw.exitStatus.isCompileFailed then .compileError
  else if cpuLimit < billedCpuTime raw cgroup then .timeLimitExceeded .cpu
  else (exitVerdict raw.exitStatus).1

/-- A run that used too much CPU exceeded its time limit, however it ended. -/
theorem cpuOverrun_fst (status : WaitStatus) : (cpuOverrun status).1 = .timeLimitExceeded .cpu := by
  cases status <;> rfl

/-- No exit status within the limits is a compile error. -/
theorem exitVerdict_ne_compileError (status : WaitStatus) : (exitVerdict status).1 ≠ .compileError := by
  cases status with
  | exited code => by_cases hzero : code = 0 <;> simp [exitVerdict, hzero]
  | signaled sig => simp [exitVerdict]
  | other => simp [exitVerdict]

/-- Triage has an answer for every outcome, with the status of the decision tree; only a
compile error discards the captured output. -/
theorem classify_spec (raw : RawOutcome) (cgroup : CgroupReading) (cpuLimit wallElapsed : Duration) :
    ∃ result, classify raw cgroup cpuLimit wallElapsed = .ok result ∧
      result.status = classifyStatus raw cgroup cpuLimit ∧
      (result.status ≠ .compileError → result.stdout = raw.stdout ∧ result.stderr = raw.stderr) ∧
      (result.status = .compileError →
        result.stdout = [] ∧ result.stderr = [] ∧ result.exitCode = none ∧ result.cpuTime = 0) := by
  obtain ⟨result, hresult, htriaged⟩ := exists_triaged raw cgroup cpuLimit wallElapsed
  refine ⟨result, hresult, ?_⟩
  unfold classifyStatus
  cases htriaged with
  | oom hoom => exact ⟨by simp [hoom, finish], fun _ => ⟨rfl, rfl⟩, by simp [finish]⟩
  | wall hoom hwall => exact ⟨by simp [hoom, hwall, finish], fun _ => ⟨rfl, rfl⟩, by simp [finish]⟩
  | sentinel hoom hwall hsentinel =>
    exact ⟨by simp [hoom, hwall, hsentinel, finish], fun h => absurd rfl h, fun _ => ⟨rfl, rfl, rfl, rfl⟩⟩
  | cpu hoom hwall hsentinel hcpu =>
    have hstatus := cpuOverrun_fst raw.exitStatus
    exact ⟨by simp [hoom, hwall, hsentinel, hcpu, finish, hstatus], fun _ => ⟨rfl, rfl⟩, by simp [finish, hstatus]⟩
  | ended hoom hwall hsentinel hcpu =>
    exact ⟨by simp [hoom, hwall, hsentinel, not_lt.mpr hcpu, finish], fun _ => ⟨rfl, rfl⟩,
      fun h => absurd h (exitVerdict_ne_compileError raw.exitStatus)⟩

/-- A process that exited or was killed by a signal always yields a judgement about the code. -/
theorem classifyStatus_isVerdict {raw : RawOutcome} (hended : raw.exitStatus ≠ .other)
    (cgroup : CgroupReading) (cpuLimit : Duration) :
    (classifyStatus raw cgroup cpuLimit).isVerdict = true := by
  unfold classifyStatus
  split_ifs
  · rfl
  · rfl
  · rfl
  · rfl
  · cases hstatus : raw.exitStatus with
    | exited code => by_cases hzero : code = 0 <;> simp [exitVerdict, hzero, Status.isVerdict]
    | signaled sig => rfl
    | other => exact absurd hstatus hended

/-- Without an OOM event and a wall kill, a compile error is exactly the sentinel exit code. -/
theorem classifyStatus_compileError_iff {raw : RawOutcome} {cgroup : CgroupReading}
    (hoom : cgroup.oomKilled = false) (hwall : raw.killedByWallTimeout = false) (cpuLimit : Duration) :
    classifyStatus raw cgroup cpuLimit = .compileError ↔ raw.exitStatus.isCompileFailed = true := by
  unfold classifyStatus
  rw [hoom, hwall]
  simp only [Bool.false_eq_true, if_false]
  split_ifs with hsentinel hcpu
  · simp [hsentinel]
  · simp [hsentinel]
  · cases hstatus : raw.exitStatus with
    | exited code =>
      rw [hstatus] at hsentinel
      by_cases hzero : code = 0 <;> simp [exitVerdict, hzero, WaitStatus.isCompileFailed, compileFailedExitCode]
      simpa [WaitStatus.isCompileFailed, compileFailedExitCode] using hsentinel
    | signaled sig => simp [exitVerdict, WaitStatus.isCompileFailed]
    | other => simp [exitVerdict, WaitStatus.isCompileFailed]

/-- The sentinel decides: neither an OOM event nor a wall kill outranks it. -/
def gradedBySentinel (raw : RawOutcome) (cgroup : CgroupReading) : Bool :=
  !cgroup.oomKilled && !raw.killedByWallTimeout && raw.exitStatus.isCompileFailed

/-- Triage reports a compile error exactly when the sentinel decides. -/
theorem classifyStatus_compileError_iff_graded (raw : RawOutcome) (cgroup : CgroupReading) (cpuLimit : Duration) :
    classifyStatus raw cgroup cpuLimit = .compileError ↔ gradedBySentinel raw cgroup = true := by
  by_cases hoom : cgroup.oomKilled = true
  · simp [classifyStatus, gradedBySentinel, hoom]
  by_cases hwall : raw.killedByWallTimeout = true
  · simp [classifyStatus, gradedBySentinel, hoom, hwall]
  have hnoOom := eq_false_of_ne_true hoom
  have hnoWall := eq_false_of_ne_true hwall
  rw [classifyStatus_compileError_iff hnoOom hnoWall, gradedBySentinel, hnoOom, hnoWall]
  simp

/-- Apart from the status, triage passes the compiler's output on and bills the two phases
by their samples, except that under the sentinel the whole job was the compile. -/
theorem classify_billing {raw : RawOutcome} {cgroup : CgroupReading} {cpuLimit wallElapsed : Duration}
    {result : SandboxResult} (h : classify raw cgroup cpuLimit wallElapsed = .ok result) :
    result.compileOutput = (if raw.compileStderr.isEmpty then none else some raw.compileStderr) ∧
      result.compileTime =
        (if gradedBySentinel raw cgroup then wallElapsed else raw.compileWallTime.getD 0) ∧
      result.cpuTime = if gradedBySentinel raw cgroup then 0 else billedCpuTime raw cgroup := by
  obtain ⟨result', hresult', htriaged⟩ := exists_triaged raw cgroup cpuLimit wallElapsed
  obtain rfl : result = result' := Except.ok.inj (h.symm.trans hresult')
  cases htriaged with
  | oom hoom => simp [finish, gradedBySentinel, hoom]
  | wall hoom hwall => simp [finish, gradedBySentinel, hwall]
  | sentinel hoom hwall hsentinel => simp [finish, gradedBySentinel, hoom, hwall, hsentinel]
  | cpu hoom hwall hsentinel => simp [finish, gradedBySentinel, hsentinel]
  | ended hoom hwall hsentinel => simp [finish, gradedBySentinel, hsentinel]

end ZeroCode.Sandbox
