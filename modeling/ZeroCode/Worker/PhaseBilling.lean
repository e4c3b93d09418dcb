import ZeroCode.Sandbox.PhaseOrder
import ZeroCode.Worker.Fleet

/-!
# Billing the two phases

The row of a finished job keeps the time of the compile phase, `NULL` for none, and the
CPU time of the program. Both rest on the samples taken at the barrier: a compile phase
that never reaches it is billed to the program and recorded as absent, unless the
sentinel tells triage that the whole job was the compile. A program that exits with the
sentinel is taken for a compile phase.
-/

namespace ZeroCode.Worker

open ZeroCode.Core ZeroCode.Foundation ZeroCode.Sandbox ZeroCode.Sandbox.Phases

/-- The compile time is absent exactly for a job that entered no compile phase, and the CPU time
is no more than what was used outside the compiler. -/
def BillsPhases (s : State) (row : Row) : Prop :=
  (row.compileTime = none ↔ s.entered = false) ∧ ∀ billed, row.cpuTime = some billed → billed ≤ asSecs s.otherCpu

/-- The samples tell the phases apart: a job that ends with the sentinel entered its compile
phase, and any other compile phase passed the barrier while `cpu.stat` could be read. -/
structure PhasesTold (s : State) (m : Measures s) : Prop where
  sentinel : EndsWithSentinel s m → (s.entered = true ↔ m.wallElapsed ≠ 0)
  barrier : ¬ EndsWithSentinel s m → s.entered = true → ∃ readable cpu wall,
    s.barrier = .fired readable cpu wall ∧ wall ≠ 0 ∧
      (readable = true ∨ m.cpuReadable = false ∨ s.compilerCpu = 0)

/-- Seconds are ordered as the durations are. -/
theorem asSecs_le_asSecs_iff (a b : Duration) : asSecs a ≤ asSecs b ↔ a ≤ b := by
  rw [asSecs, asSecs, div_le_div_iff_of_pos_right (by norm_num), Nat.cast_le]

/-- What a worker writes about the two phases. -/
theorem mem_writeResult {rows : List Row} {now : ℚ} {token : Token} {result : SandboxResult} {row : Row}
    (h : row ∈ writeResult rows now token result) (htoken : row.token = token) :
    (row.compileTime = none ↔ result.compileTime = 0) ∧ row.cpuTime = some (asSecs result.cpuTime) := by
  rcases mem_updateWhere h with ⟨_, hnot⟩ | ⟨old, _, _, rfl⟩
  · simp [htoken] at hnot
  · simp

/-- The billed times of a result. -/
theorem returns_billing {job : SandboxJob} {cached : Bool} {s : State} {m : Measures s} {result : SandboxResult}
    (h : Returns job cached s m result) :
    (EndsWithSentinel s m → result.compileTime = m.wallElapsed ∧ result.cpuTime = 0) ∧
      (¬ EndsWithSentinel s m → result.compileTime = s.barrier.wall.getD 0 ∧
        result.cpuTime = (s.reading m).cpuTime - s.barrier.cpu.getD 0) := by
  obtain ⟨raw, hraw, hconcluded⟩ := h.returned
  obtain ⟨triaged, htriaged, rfl⟩ := conclude_ok hconcluded
  have hcollected := raw_collected hraw
  obtain ⟨_, htime, hcpu⟩ := classify_billing htriaged
  rw [← gradedBySentinel_iff m hcollected]
  refine ⟨?_, ?_⟩
  · intro hgraded
    rw [if_pos hgraded] at htime hcpu
    exact ⟨htime, hcpu⟩
  · intro hgraded
    rw [if_neg hgraded] at htime hcpu
    refine ⟨by rw [← hcollected.compileWallTime]; exact htime, ?_⟩
    rw [← hcollected.compileCpuTime]
    refine hcpu.trans ?_
    unfold billedCpuTime
    cases raw.compileCpuTime <;> rfl

/-- A job that entered no compile phase has no sample of one. -/
theorem barrier_of_not_entered {s : State} (inv : Inv s) (hnot : s.entered = false) :
    s.barrier.wall = none ∧ s.barrier.cpu = none ∧ s.compilerCpu = 0 := by
  obtain ⟨hcpu, _, hlog⟩ := inv.untouched hnot
  cases hbarrier : s.barrier with
  | waiting => exact ⟨rfl, rfl, hcpu⟩
  | failed => exact ⟨rfl, rfl, hcpu⟩
  | fired readable cpu wall =>
    obtain ⟨⟨w, hw, hpipe⟩, _⟩ := inv.sampled _ _ _ hbarrier
    exact absurd hpipe (hlog w hw).2

/-- The CPU the reading reports beyond a sample is free of the compiler exactly when the sample
covers it. -/
theorem reading_sub_le_iff (s : State) (m : Measures s) (sample : Duration) :
    (s.reading m).cpuTime - sample ≤ s.otherCpu ↔ m.cpuReadable = false ∨ s.compilerCpu ≤ sample := by
  have hsplit (compiler other : ℕ) : compiler + other - sample ≤ other ↔ compiler ≤ sample := by omega
  unfold State.reading
  cases m.cpuReadable with
  | true => simpa using hsplit s.compilerCpu s.otherCpu
  | false => simp

/-- A sample covers the compiler when `cpu.stat` could be read, or there was nothing to cover. -/
theorem sample_covers_iff {s : State} (inv : Inv s) {readable : Bool} {cpu wall : Duration}
    (hfired : s.barrier = .fired readable cpu wall) :
    s.compilerCpu ≤ cpu ↔ readable = true ∨ s.compilerCpu = 0 := by
  obtain ⟨_, hsample⟩ := inv.sampled _ _ _ hfired
  cases readable with
  | true => exact ⟨fun _ => Or.inl rfl, fun _ => hsample⟩
  | false =>
    rw [if_neg Bool.false_ne_true] at hsample
    rw [hsample]
    simp

/-- A job that ends with the sentinel is billed as a compile phase of its whole wall time. -/
theorem phasesTold_iff_of_sentinel {s : State} {m : Measures s} (hgraded : EndsWithSentinel s m) :
    PhasesTold s m ↔ (m.wallElapsed = 0 ↔ s.entered = false) := by
  have hflip : (m.wallElapsed = 0 ↔ s.entered = false) ↔ (s.entered = true ↔ m.wallElapsed ≠ 0) := by
    cases s.entered <;> simp
  rw [hflip]
  exact ⟨fun htold => htold.sentinel hgraded, fun hentered => ⟨fun _ => hentered, fun hnot => absurd hgraded hnot⟩⟩

/-- Any other job is billed by the samples taken at the barrier. -/
theorem phasesTold_iff_of_not_sentinel {s : State} {m : Measures s} (inv : Inv s)
    (hgraded : ¬ EndsWithSentinel s m) :
    PhasesTold s m ↔ (s.barrier.wall.getD 0 = 0 ↔ s.entered = false) ∧
      (s.reading m).cpuTime - s.barrier.cpu.getD 0 ≤ s.otherCpu := by
  rw [reading_sub_le_iff]
  cases hentered : s.entered with
  | false =>
    obtain ⟨hwall, hsample, hnone⟩ := barrier_of_not_entered inv hentered
    rw [hwall, hsample, hnone]
    exact ⟨fun _ => ⟨by simp, Or.inr (Nat.zero_le _)⟩,
      fun _ => ⟨fun hyes => absurd hyes hgraded, fun _ hyes => by simp [hentered] at hyes⟩⟩
  | true =>
    constructor
    · intro htold
      obtain ⟨readable, cpu, wall, hfired, hwall, hcovers⟩ := htold.barrier hgraded hentered
      rw [or_left_comm, ← sample_covers_iff inv hfired] at hcovers
      rw [hfired]
      exact ⟨by simpa [Barrier.wall] using hwall, hcovers⟩
    · intro hbills
      obtain ⟨htimed, hcovered⟩ := hbills
      refine ⟨fun hyes => absurd hyes hgraded, fun _ _ => ?_⟩
      cases hfired : s.barrier with
      | waiting => simp [hfired, Barrier.wall] at htimed
      | failed => simp [hfired, Barrier.wall] at htimed
      | fired readable cpu wall =>
        rw [hfired] at htimed hcovered
        refine ⟨readable, cpu, wall, rfl, by simpa [Barrier.wall] using htimed, ?_⟩
        rw [or_left_comm, ← sample_covers_iff inv hfired]
        exact hcovered

/-- The phases are billed apart exactly when the samples tell them apart. -/
theorem writeResult_billsPhases_iff {job : SandboxJob} {cached : Bool} {num : Numbering} {s : State}
    {m : Measures s} {result : SandboxResult} (reached : Reachable (step job cached num) State.init s)
    (h : Returns job cached s m result) {rows : List Row} {now : ℚ} {row : Row}
    (hrow : row ∈ writeResult rows now job.token result) (htoken : row.token = job.token) :
    BillsPhases s row ↔ PhasesTold s m := by
  obtain ⟨htime, hcpu⟩ := mem_writeResult hrow htoken
  obtain ⟨hsentinel, hbarrier⟩ := returns_billing h
  have hbills : BillsPhases s row ↔
      (result.compileTime = 0 ↔ s.entered = false) ∧ result.cpuTime ≤ s.otherCpu := by
    simp [BillsPhases, htime, hcpu, asSecs_le_asSecs_iff]
  rw [hbills]
  by_cases hgraded : EndsWithSentinel s m
  · obtain ⟨hcompile, hzero⟩ := hsentinel hgraded
    rw [hcompile, hzero, phasesTold_iff_of_sentinel hgraded]
    exact and_iff_left (Nat.zero_le _)
  · obtain ⟨hcompile, hbilled⟩ := hbarrier hgraded
    rw [hcompile, hbilled, phasesTold_iff_of_not_sentinel (reachable_inv reached) hgraded]

/-- A compiled job with a readable sample is billed phase by phase. -/
theorem writeResult_billsPhases_iff_cold :
    ∃ result row, Returns .compiled false (finalState .compiled false (coldRun [] [] [1])) (.whole _ 5) result ∧
      row ∈ writeResult [(NewSubmission.blank 0).row 0] 0 0 result ∧
      BillsPhases (finalState .compiled false (coldRun [] [] [1])) row := by
  have reached := reachable_finalState .compiled false (coldRun [] [] [1]) (by decide +kernel)
  obtain ⟨result, hresult⟩ := exists_returns_finalState .compiled false (coldRun [] [] [1]) (by decide +kernel) 5
  have hrow : _ ∈ writeResult [(NewSubmission.blank 0).row 0] 0 0 result :=
    List.mem_map.mpr ⟨_, List.mem_singleton_self _, rfl⟩
  refine ⟨result, _, hresult, hrow, (writeResult_billsPhases_iff reached hresult hrow rfl).mpr ⟨?_, ?_⟩⟩
  · intro hsentinel
    exact absurd hsentinel.2.2 (by decide +kernel)
  · intro _ _
    exact ⟨true, 0, 1, by decide +kernel, by decide, Or.inl rfl⟩

/-- The steps of a job whose compiler is killed for its memory. -/
def compilerKilled : List Action :=
  [.setupDone, .forkCompiler, .subRedirect, .subExec, .burnCompiler 300000000, .oomKill .sub, .reap [],
    .relay false, .reapOuter, .barrierFails]

/-- A compiler killed for its memory leaves a row without a compile phase, and its CPU is billed
to the program. -/
theorem compilerKilled_billedAsRun :
    ¬ ∀ job cached num s, Reachable (step job cached num) State.init s → ∀ (m : Measures s) result,
      Returns job cached s m result → ∀ rows now row, row ∈ writeResult rows now job.token result →
        row.token = job.token → BillsPhases s row := by
  intro h
  have reached := reachable_finalState .compiled false compilerKilled (by decide +kernel)
  obtain ⟨result, hresult⟩ := exists_returns_finalState .compiled false compilerKilled (by decide +kernel) 5
  have hrow : _ ∈ writeResult [(NewSubmission.blank 0).row 0] 0 0 result :=
    List.mem_map.mpr ⟨_, List.mem_singleton_self _, rfl⟩
  have hbills := h _ _ _ _ reached _ _ hresult _ _ _ hrow rfl
  have htold := (writeResult_billsPhases_iff reached hresult hrow rfl).mp hbills
  have hkilled : ¬ EndsWithSentinel (finalState .compiled false compilerKilled) (.whole _ 5) := by
    intro hsentinel
    exact absurd hsentinel.1 (by decide +kernel)
  obtain ⟨readable, cpu, wall, hfired, _⟩ := htold.barrier hkilled (by decide +kernel)
  have hfailed : (finalState .compiled false compilerKilled).barrier = .failed := by decide +kernel
  rw [hfailed] at hfired
  cases hfired

end ZeroCode.Worker
