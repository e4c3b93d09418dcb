import ZeroCode.Foundation.FlatKeyed
import ZeroCode.Sandbox.Triage

/-!
# The coherence of triage

Triage reads three files of the cgroup, and decides in branches that outrank one another.
Whatever it reads, the status, the signal, the exit code and the times of its result fit
together, and the CPU of a compiler changes nothing about the run that follows it.
-/

namespace ZeroCode.Sandbox

open ZeroCode.Core ZeroCode.Foundation

/-- The files of a cgroup that triage reads. A file that cannot be read is missing. -/
structure Cgroup where
  memoryEvents : Option (List Char)
  memoryPeak : Option (List Char)
  cpuStat : Option (List Char)

/-- Some process of the cgroup was killed for want of memory. -/
def Cgroup.oomKilled (cgroup : Cgroup) : Bool :=
  match cgroup.memoryEvents.bind (readKey "oom_kill".toList) with
  | some n => 0 < n
  | none => false

/-- The peak of the memory, 0 if it is not known. -/
def Cgroup.memoryPeakBytes (cgroup : Cgroup) : ℕ :=
  (cgroup.memoryPeak.bind fun txt => parseUnsigned 64 (trimText txt)).getD 0

/-- The CPU time of the cgroup, which the kernel counts in microseconds. -/
def Cgroup.cpuTime (cgroup : Cgroup) : Duration :=
  match cgroup.cpuStat.bind (readKey "usage_usec".toList) with
  | some us => us * 1000
  | none => 0

/-- What triage reads. -/
def Cgroup.reading (cgroup : Cgroup) : CgroupReading := ⟨cgroup.cpuTime, cgroup.memoryPeakBytes, cgroup.oomKilled⟩

/-- The parts of a result fit together. -/
structure Coherent (raw : RawOutcome) (cgroup : CgroupReading) (cpuLimit : Duration) (result : SandboxResult) :
    Prop where
  verdict : result.status.isTerminal = true ∧ result.status.isVerdict = true
  oom : cgroup.oomKilled = true → result.status = .memoryLimitExceeded
  wall : cgroup.oomKilled = false → raw.killedByWallTimeout = true → result.status = .timeLimitExceeded .wall
  accepted : result.status = .accepted → result.exitCode = some 0 ∧ result.signal = none ∧ result.cpuTime ≤ cpuLimit
  nonZeroExit : ∀ code, result.status = .nonZeroExit code → code ≠ 0 ∧ result.exitCode = some code
  runtimeError : ∀ sig, result.status = .runtimeError sig → result.signal = some sig ∧ result.exitCode = none
  compileError : result.status = .compileError →
    result.stdout = [] ∧ result.stderr = [] ∧ result.exitCode = none ∧ result.cpuTime = 0

/-- An exit within the limits is reported with its code or its signal. -/
theorem exitVerdict_coherent (status : WaitStatus) :
    ((exitVerdict status).1 = .accepted → (exitVerdict status).2.2 = some 0 ∧ (exitVerdict status).2.1 = none) ∧
      (∀ code, (exitVerdict status).1 = .nonZeroExit code → code ≠ 0 ∧ (exitVerdict status).2.2 = some code) ∧
        ∀ sig, (exitVerdict status).1 = .runtimeError sig →
          (exitVerdict status).2.1 = some sig ∧ (exitVerdict status).2.2 = none := by
  cases status with
  | exited code =>
    by_cases hzero : code = 0
    · simp [exitVerdict, hzero]
    · simp only [exitVerdict, if_neg hzero]
      refine ⟨by simp, fun other h => ?_, by simp⟩
      cases h
      exact ⟨hzero, rfl⟩
  | signaled sig =>
    refine ⟨by simp [exitVerdict], by simp [exitVerdict], fun other h => ?_⟩
    cases h
    exact ⟨rfl, rfl⟩
  | other => simp [exitVerdict]

/-- Every result of triage is coherent. -/
theorem Triaged.coherent {raw : RawOutcome} {cgroup : CgroupReading} {cpuLimit wallElapsed : Duration}
    {result : SandboxResult} (h : Triaged raw cgroup cpuLimit wallElapsed result)
    (hverdict : result.status.isTerminal = true ∧ result.status.isVerdict = true) :
    Coherent raw cgroup cpuLimit result := by
  cases h with
  | oom hoom =>
    exact {
      verdict := hverdict
      oom := fun _ => rfl
      wall := fun hnone => absurd (hoom.symm.trans hnone) (by decide)
      accepted := fun heq => by cases heq
      nonZeroExit := fun code heq => by cases heq
      runtimeError := fun sig heq => by cases heq
      compileError := fun heq => by cases heq }
  | wall hoom hwall =>
    exact {
      verdict := hverdict
      oom := fun hsome => absurd (hoom.symm.trans hsome) (by decide)
      wall := fun _ _ => rfl
      accepted := fun heq => by cases heq
      nonZeroExit := fun code heq => by cases heq
      runtimeError := fun sig heq => by cases heq
      compileError := fun heq => by cases heq }
  | sentinel hoom hwall hsentinel =>
    exact {
      verdict := hverdict
      oom := fun hsome => absurd (hoom.symm.trans hsome) (by decide)
      wall := fun _ hkilled => absurd (hwall.symm.trans hkilled) (by decide)
      accepted := fun heq => by cases heq
      nonZeroExit := fun code heq => by cases heq
      runtimeError := fun sig heq => by cases heq
      compileError := fun _ => ⟨rfl, rfl, rfl, rfl⟩ }
  | cpu hoom hwall hsentinel hcpu =>
    have other {status : Status} (hne : status ≠ .timeLimitExceeded .cpu) :
        (cpuOverrun raw.exitStatus).1 ≠ status := fun heq => hne (heq.symm.trans (cpuOverrun_fst raw.exitStatus))
    exact {
      verdict := hverdict
      oom := fun hsome => absurd (hoom.symm.trans hsome) (by decide)
      wall := fun _ hkilled => absurd (hwall.symm.trans hkilled) (by decide)
      accepted := fun heq => absurd heq (other (by decide))
      nonZeroExit := fun code heq => absurd heq (other (by simp))
      runtimeError := fun sig heq => absurd heq (other (by simp))
      compileError := fun heq => absurd heq (other (by decide)) }
  | ended hoom hwall hsentinel hcpu =>
    obtain ⟨haccepted, hnonZero, hruntime⟩ := exitVerdict_coherent raw.exitStatus
    exact {
      verdict := hverdict
      oom := fun hsome => absurd (hoom.symm.trans hsome) (by decide)
      wall := fun _ hkilled => absurd (hwall.symm.trans hkilled) (by decide)
      accepted := fun heq => ⟨(haccepted heq).1, (haccepted heq).2, hcpu⟩
      nonZeroExit := hnonZero
      runtimeError := hruntime
      compileError := fun heq => absurd heq (exitVerdict_ne_compileError raw.exitStatus) }

/-- A compiler that used more CPU leaves the result as it is. -/
theorem classify_shift {raw : RawOutcome} {compileCpu : Duration} (hcompile : raw.compileCpuTime = some compileCpu)
    (cgroup : CgroupReading) (cpuLimit wallElapsed more : Duration) :
    classify { raw with compileCpuTime := some (compileCpu + more) }
        { cgroup with cpuTime := cgroup.cpuTime + more } cpuLimit wallElapsed =
      classify raw cgroup cpuLimit wallElapsed := by
  have hbilled : billedCpuTime { raw with compileCpuTime := some (compileCpu + more) }
      { cgroup with cpuTime := cgroup.cpuTime + more } = billedCpuTime raw cgroup := by
    rw [billedCpuTime, billedCpuTime, hcompile]
    exact Nat.add_sub_add_right cgroup.cpuTime more compileCpu
  unfold classify
  rw [hbilled]
  rfl

/-- For every outcome that ended, whatever the cgroup says, and for every limit: triage returns a coherent verdict,
and more CPU of the compiler alone changes neither the status nor the CPU time of the result. -/
theorem triage_coherent {raw : RawOutcome} (hended : raw.exitStatus ≠ .other) (cgroup : CgroupReading)
    (cpuLimit wallElapsed : Duration) :
    ∃ result, classify raw cgroup cpuLimit wallElapsed = .ok result ∧ Coherent raw cgroup cpuLimit result ∧
      ∀ compileCpu more, raw.compileCpuTime = some compileCpu → compileCpu ≤ cgroup.cpuTime →
        ∃ shifted, classify { raw with compileCpuTime := some (compileCpu + more) }
            { cgroup with cpuTime := cgroup.cpuTime + more } cpuLimit wallElapsed = .ok shifted ∧
          shifted.status = result.status ∧ shifted.cpuTime = result.cpuTime := by
  obtain ⟨result, hresult, htriaged⟩ := exists_triaged raw cgroup cpuLimit wallElapsed
  have hstatus : result.status = classifyStatus raw cgroup cpuLimit := by
    obtain ⟨result', hresult', hstatus', _⟩ := classify_spec raw cgroup cpuLimit wallElapsed
    rwa [Except.ok.inj (hresult.symm.trans hresult')]
  have hverdict : result.status.isVerdict = true := hstatus ▸ classifyStatus_isVerdict hended cgroup cpuLimit
  refine ⟨result, hresult, htriaged.coherent ⟨Status.isTerminal_of_isVerdict hverdict, hverdict⟩, ?_⟩
  intro compileCpu more hcompile _
  exact ⟨result, (classify_shift hcompile cgroup cpuLimit wallElapsed more).trans hresult, rfl, rfl⟩

/-- A program that compiled and was killed by a signal. -/
def signalledOutcome : RawOutcome where
  exitStatus := .signaled 11
  stdout := [111, 107]
  stderr := []
  compileStderr := []
  compiledBinary := []
  killedByWallTimeout := false
  runPhaseMemoryKb := some 100
  compileCpuTime := some 30
  compileWallTime := some 40

/-- It is reported as a runtime error with that signal, and 20 of 50 units of CPU. -/
theorem triage_coherent_signalled :
    ∃ result, classify signalledOutcome ⟨50, 0, false⟩ 25 60 = .ok result ∧
      result.status = .runtimeError .sigsegv ∧ result.signal = some .sigsegv ∧ result.exitCode = none ∧
        result.cpuTime = 20 := by
  obtain ⟨result, hresult, hcoherent, _⟩ :=
    @triage_coherent signalledOutcome (by decide) ⟨50, 0, false⟩ 25 60
  have hreported : result.status = .runtimeError .sigsegv ∧ result.cpuTime = 20 := by
    cases hresult
    exact ⟨rfl, rfl⟩
  obtain ⟨hsignal, hexit⟩ := hcoherent.runtimeError _ hreported.1
  exact ⟨result, hresult, hreported.1, hsignal, hexit, hreported.2⟩

/-- In the file as the kernel writes it, the count under `oom_kill` decides. -/
theorem Cgroup.oomKilled_writeEntries {entries : List (List Char × ℕ)} (h : ∀ entry ∈ entries, FlatEntry entry)
    (cgroup : Cgroup) (hevents : cgroup.memoryEvents = some (writeEntries entries)) :
    cgroup.oomKilled = decide (∃ n, entries.lookup "oom_kill".toList = some n ∧ 0 < n) := by
  have hread : readKey "oom_kill".toList (writeEntries entries) = entries.lookup "oom_kill".toList :=
    readKey_writeEntries h (by decide)
  rw [Cgroup.oomKilled, hevents, Option.bind_some, hread]
  cases entries.lookup "oom_kill".toList with
  | none => simp
  | some n => simp

/-- A count of kills in the file of the kernel forces the memory limit, whatever else was read. -/
theorem classify_of_oomKill {entries : List (List Char × ℕ)} (h : ∀ entry ∈ entries, FlatEntry entry)
    {cgroup : Cgroup} (hevents : cgroup.memoryEvents = some (writeEntries entries)) {n : ℕ}
    (hkills : entries.lookup "oom_kill".toList = some n) (hn : 0 < n) (raw : RawOutcome)
    (cpuLimit wallElapsed : Duration) :
    ∃ result, classify raw cgroup.reading cpuLimit wallElapsed = .ok result ∧
      result.status = .memoryLimitExceeded := by
  have hoom : cgroup.reading.oomKilled = true := by
    rw [Cgroup.reading, Cgroup.oomKilled_writeEntries h cgroup hevents]
    exact decide_eq_true ⟨n, hkills, hn⟩
  obtain ⟨result, hresult, hstatus, _⟩ := classify_spec raw cgroup.reading cpuLimit wallElapsed
  rw [classifyStatus, if_pos hoom] at hstatus
  exact ⟨result, hresult, hstatus⟩

end ZeroCode.Sandbox
