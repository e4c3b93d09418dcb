import Mathlib.Algebra.Order.Ring.Unbundled.Rat
import Mathlib.Data.NNRat.Defs
import Mathlib.Tactic.Linarith
import Mathlib.Tactic.NormNum
import ZeroCode.Worker.Rows

/-!
# The age of a live claim

A claim ages from its commit, through the wait for memory behind other jobs, to the end of
its last attempt in the sandbox. The sweeper knows only the wall limit of the run, counted
twice, and a minute. Two attempts use up exactly the two wall limits, so the minute has to
cover the admission, both compilations and the pause before the second attempt, and none of
these is bounded by the limits of the submission.
-/

namespace ZeroCode.Worker

open ZeroCode.Core ZeroCode.Foundation ZeroCode.Sandbox

/-- How many times a single submission may be handed to the sandbox. -/
def maxSandboxAttempts : ℕ := 2

/-- The pause before another attempt, in seconds. -/
def retryPause : ℚ := 1 / 20

/-- One call of the sandbox: the seconds its phases took, and what it returned. -/
structure Attempt where
  compileTime : ℚ≥0
  runTime : ℚ≥0
  outcome : Except SandboxError SandboxResult

/-- The seconds an attempt took. -/
def Attempt.elapsed (a : Attempt) : ℚ := a.compileTime + a.runTime

/-- Run the job, retrying infrastructure faults: what is returned, and after how long. -/
def executeWithRetry (execute : ℕ → Attempt) (attempt : ℕ) : Except SandboxError SandboxResult × ℚ :=
  match (execute attempt).outcome with
  | .ok result => (.ok result, (execute attempt).elapsed)
  | .error e =>
    if e.isRetryable ∧ attempt < maxSandboxAttempts then
      let rest := executeWithRetry execute (attempt + 1)
      (rest.1, (execute attempt).elapsed + retryPause + rest.2)
    else (.error e, (execute attempt).elapsed)
termination_by maxSandboxAttempts - attempt

/-- The wall budget of a compile phase. -/
def compileWall (spec : LanguageSpec) (limits : ResourceLimits) (hasCachedBinary : Bool) : ℚ :=
  match spec.willCompile hasCachedBinary, spec.compileLimits with
  | true, some compileLimits => max compileLimits.wallTime limits.wallTime
  | _, _ => limits.wallTime

/-- The seconds an attempt may spend on its compile phase; it may have none. -/
def compileBudget (spec : LanguageSpec) (limits : ResourceLimits) (hasCachedBinary : Bool) : ℚ :=
  if spec.willCompile hasCachedBinary then compileWall spec limits hasCachedBinary else 0

/-- The attempt stayed within the budget of each phase. -/
def Attempt.Within (spec : LanguageSpec) (limits : ResourceLimits) (hasCachedBinary : Bool) (a : Attempt) : Prop :=
  a.compileTime ≤ compileBudget spec limits hasCachedBinary ∧ a.runTime ≤ limits.wallTime

/-- A claim of this age waits no longer for memory and has not ended its last attempt. -/
def ExecutingAt (waits : List ℚ≥0) (execute : ℕ → Attempt) (age : ℚ) : Prop :=
  waits.sum ≤ age ∧ age < waits.sum + (executeWithRetry execute 1).2

/-- Whatever the sandbox does within its budgets, as long as the claim is executed it is
within its threshold, and the sweeper leaves the row as it is. -/
def KeptWhileExecuting (spec : LanguageSpec) (hasCachedBinary : Bool) (waits : List ℚ≥0) (claimedAt : ℚ)
    (r : Row) : Prop :=
  ∀ execute : ℕ → Attempt, (∀ n, (execute n).Within spec r.claimedJob.limits hasCachedBinary) →
    ∀ age, ExecutingAt waits execute age →
      age ≤ 60 + 2 * r.wallTimeLimit ∧ ∀ rows, r ∈ rows → r ∈ sweepStale rows (claimedAt + age)

/-- Accepted limits leave the compile phase a budget that is not negative. -/
theorem compileBudget_nonneg {spec : LanguageSpec} {limits : ResourceLimits} {hasCachedBinary : Bool}
    (hwall : 0 ≤ limits.wallTime) : 0 ≤ compileBudget spec limits hasCachedBinary := by
  unfold compileBudget
  split
  · unfold compileWall
    split
    · exact le_max_of_le_right hwall
    · exact hwall
  · exact le_rfl

/-- The compile phase depends on the limits only through the wall limit. -/
theorem compileBudget_congr {spec : LanguageSpec} {limits limits' : ResourceLimits} {hasCachedBinary : Bool}
    (hwall : limits.wallTime = limits'.wallTime) :
    compileBudget spec limits hasCachedBinary = compileBudget spec limits' hasCachedBinary := by
  simp only [compileBudget, compileWall, hwall]

/-- From any attempt on, the retries stay within the budgets of the attempts left and the pauses between them. -/
theorem executeWithRetry_le {execute : ℕ → Attempt} {budget : ℚ} (hbudget : ∀ n, (execute n).elapsed ≤ budget)
    (hnonneg : 0 ≤ budget) (attempt : ℕ) (hle : attempt ≤ maxSandboxAttempts) :
    (executeWithRetry execute attempt).2 ≤ budget + (maxSandboxAttempts - attempt) * (budget + retryPause) := by
  have hround : 0 ≤ budget + retryPause := add_nonneg hnonneg (by norm_num [retryPause])
  have hone (n : ℕ) (hn : n ≤ maxSandboxAttempts) :
      (execute n).elapsed ≤ budget + (maxSandboxAttempts - n) * (budget + retryPause) := by
    have hleft : (0 : ℚ) ≤ (maxSandboxAttempts - n) * (budget + retryPause) :=
      mul_nonneg (sub_nonneg.mpr (by exact_mod_cast hn)) hround
    linarith [hbudget n]
  induction attempt using executeWithRetry.induct execute with
  | case1 attempt result hok =>
    rw [executeWithRetry, hok]
    exact hone attempt hle
  | case2 attempt e herror hretry ih =>
    rw [executeWithRetry, herror]
    simp only [if_pos hretry]
    have hrest := ih hretry.2
    push_cast at hrest
    linarith [hbudget attempt]
  | case3 attempt e herror hstop =>
    rw [executeWithRetry, herror]
    simp only [if_neg hstop]
    exact hone attempt hle

/-- When every attempt uses its budget and fails with a retryable fault, the bound is attained. -/
theorem executeWithRetry_eq {execute : ℕ → Attempt} {budget : ℚ} {e : SandboxError}
    (hretryable : e.isRetryable = true) (hfails : ∀ n, (execute n).outcome = .error e)
    (hbudget : ∀ n, (execute n).elapsed = budget) (attempt : ℕ) (hle : attempt ≤ maxSandboxAttempts) :
    (executeWithRetry execute attempt).2 = budget + (maxSandboxAttempts - attempt) * (budget + retryPause) := by
  induction attempt using executeWithRetry.induct execute with
  | case1 attempt result hok =>
    rw [hfails attempt] at hok
    cases hok
  | case2 attempt e' herror hretry ih =>
    rw [executeWithRetry, herror]
    simp only [if_pos hretry, hbudget]
    rw [ih hretry.2]
    push_cast
    ring
  | case3 attempt e' herror hstop =>
    rw [executeWithRetry, herror]
    simp only [if_neg hstop, hbudget]
    -- the fault is retryable, so only the number of attempts can have stopped the loop
    obtain rfl : e = e' := by
      rw [hfails attempt] at herror
      exact Except.error.inj herror
    have hlast : attempt = maxSandboxAttempts := by
      by_contra hmore
      exact hstop ⟨hretryable, lt_of_le_of_ne hle hmore⟩
    rw [hlast]
    ring

/-- A claimed row is stale exactly when its claim is older than its threshold. -/
theorem Row.stale_claim (r : Row) (claimedAt age : ℚ) (workerId : String) :
    (r.claim claimedAt workerId).stale (claimedAt + age) = true ↔ 60 + 2 * r.wallTimeLimit < age := by
  change decide (claimedAt < claimedAt + age - (60 + 2 * r.wallTimeLimit)) = true ↔ _
  rw [decide_eq_true_iff]
  constructor <;> intro h <;> linarith

/-- What the sandbox does when every attempt uses up its budgets and ends in a retryable fault. -/
def exhaustingAttempt (spec : LanguageSpec) (limits : ResourceLimits) (hasCachedBinary : Bool) : Attempt where
  compileTime := (compileBudget spec limits hasCachedBinary).toNNRat
  runTime := limits.wallTime.toNNRat
  outcome := .error (.wait "waitpid")

/-- A claim is kept when the wait for memory, two compilations and a pause fit into the minute. -/
theorem kept_of_fits {spec : LanguageSpec} {hasCachedBinary : Bool} {waits : List ℚ≥0} {r : Row}
    (hwall : 0 ≤ r.wallTimeLimit) (claimedAt : ℚ) (workerId : String)
    (hfits : waits.sum + 2 * compileBudget spec r.claimedJob.limits hasCachedBinary + retryPause ≤ 60) :
    KeptWhileExecuting spec hasCachedBinary waits claimedAt (r.claim claimedAt workerId) := by
  intro execute hwithin age hexecuting
  have htotal := executeWithRetry_le
    (fun n => add_le_add (hwithin n).1 (hwithin n).2)
    (add_nonneg (compileBudget_nonneg hwall) hwall) 1 (by decide)
  have hage : age ≤ 60 + 2 * r.wallTimeLimit := by
    have hbefore := hexecuting.2
    simp only [Row.claimedJob, Row.claim, maxSandboxAttempts] at htotal hfits
    push_cast at htotal
    linarith
  refine ⟨hage, fun rows hr => mem_updateWhere_of_not hr ?_⟩
  rw [Bool.eq_false_iff, ne_eq, Row.stale_claim]
  exact not_lt.mpr hage

/-- When they do not fit, the sandbox can spend its budgets so that the claim outlives its threshold. -/
theorem outlived_of_not_fits {spec : LanguageSpec} {hasCachedBinary : Bool} {waits : List ℚ≥0} {r : Row}
    (hwall : 0 < r.wallTimeLimit) (claimedAt : ℚ) (workerId : String)
    (hover : 60 < waits.sum + 2 * compileBudget spec r.claimedJob.limits hasCachedBinary + retryPause) :
    ¬ KeptWhileExecuting spec hasCachedBinary waits claimedAt (r.claim claimedAt workerId) := by
  have hcompile : 0 ≤ compileBudget spec r.claimedJob.limits hasCachedBinary := compileBudget_nonneg hwall.le
  intro hkept
  have hspent : (exhaustingAttempt spec r.claimedJob.limits hasCachedBinary).elapsed =
      compileBudget spec r.claimedJob.limits hasCachedBinary + r.wallTimeLimit :=
    congrArg₂ (· + ·) (Rat.coe_toNNRat _ hcompile) (Rat.coe_toNNRat _ hwall.le)
  have hretryable : (SandboxError.wait "waitpid").isRetryable = true := rfl
  have htotal := executeWithRetry_eq hretryable (fun _ => rfl) (fun _ => hspent) 1 (by decide)
  simp only [maxSandboxAttempts] at htotal
  push_cast at htotal
  have hpause : 0 < retryPause := by norm_num [retryPause]
  -- an age beyond the threshold at which the last attempt has still not ended
  have hroom : max (60 + 2 * r.wallTimeLimit) waits.sum <
      waits.sum + (executeWithRetry (fun _ => exhaustingAttempt spec r.claimedJob.limits hasCachedBinary) 1).2 := by
    rw [htotal]
    exact max_lt (by linarith) (by linarith)
  obtain ⟨age, hafter, hbefore⟩ := exists_between hroom
  have hwithin (_ : ℕ) :
      (exhaustingAttempt spec r.claimedJob.limits hasCachedBinary).Within spec r.claimedJob.limits hasCachedBinary :=
    ⟨(Rat.coe_toNNRat _ hcompile).le, (Rat.coe_toNNRat _ hwall.le).le⟩
  have hyoung := (hkept _ hwithin age ⟨(max_lt_iff.mp hafter).2.le, hbefore⟩).1
  exact absurd hyoung (not_le.mpr (max_lt_iff.mp hafter).1)

/-- A claim of an accepted submission is kept while it is executed exactly when the wait for
memory, two compilations and the pause between the attempts fit into the minute. -/
theorem keptWhileExecuting_iff (spec : LanguageSpec) (hasCachedBinary : Bool) (waits : List ℚ≥0)
    (new : NewSubmission) (ceiling : ResourceLimits) (createdAt claimedAt : ℚ) (workerId : String)
    (hvalid : new.limits.validate ceiling = .ok ()) :
    KeptWhileExecuting spec hasCachedBinary waits claimedAt ((new.row createdAt).claim claimedAt workerId) ↔
      waits.sum + 2 * compileBudget spec new.limits hasCachedBinary + retryPause ≤ 60 := by
  have hwall : 0 < (new.row createdAt).wallTimeLimit := by
    have : 1 / 10 ≤ new.limits.wallTime := (ResourceLimits.validate_wallTime hvalid).1
    exact lt_of_lt_of_le (by norm_num) this
  have hbudget : compileBudget spec (new.row createdAt).claimedJob.limits hasCachedBinary =
      compileBudget spec new.limits hasCachedBinary := compileBudget_congr rfl
  rw [← hbudget]
  constructor
  · intro hkept
    by_contra hover
    exact outlived_of_not_fits hwall claimedAt workerId (not_le.mp hover) hkept
  · exact fun hfits => kept_of_fits hwall.le claimedAt workerId hfits

/-- The ceiling the API is started with. -/
def limitCeiling : ResourceLimits where
  cpuTime := 30
  wallTime := 60
  memoryMb := 2048
  maxPids := 256
  maxStdout := 256 * 1024
  maxStderr := 256 * 1024
  enableNetwork := false

/-- The limits a Swift program runs under by default. -/
def swiftLimits : ResourceLimits where
  cpuTime := 25
  wallTime := 50
  memoryMb := 128
  maxPids := 128
  maxStdout := 65536
  maxStderr := 65536
  enableNetwork := false

/-- The entry of the language registry for Swift. -/
def swift : LanguageSpec where
  id := 152
  sourceFile := "main.swift"
  compileCmd := some ["/usr/local/bin/swiftc", "-O", "-o", "prog", "main.swift"]
  runCmd := ["./prog"]
  env := [("SWIFT_BACKTRACE", "enable=no")]
  defaultLimits := some swiftLimits
  compileLimits := some { swiftLimits with memoryMb := 1024 }

/-- A submission of an empty Swift program under the default limits. -/
def swiftSubmission : NewSubmission where
  token := 7
  languageId := swift.id
  sourceCode := []
  stdin := none
  limits := swiftLimits
  callbackUrl := none
  idempotencyKey := none
  idempotencyHash := none
  batchId := none

/-- A Swift job that is restored from the compile cache may wait half a minute for memory. -/
theorem keptWhileExecuting_iff_cached :
    KeptWhileExecuting swift true [30] 0 ((swiftSubmission.row 0).claim 0 "w") :=
  (keptWhileExecuting_iff swift true [30] swiftSubmission limitCeiling 0 0 "w" (by decide +kernel)).mpr
    (by norm_num [compileBudget, LanguageSpec.willCompile, retryPause])

/-- An attempt that uses up both budgets of a Swift job and loses the exit status of its child. -/
def swiftFault : Attempt := ⟨50, 50, .error (.wait "waitpid")⟩

/-- A Swift job whose first attempt uses up both budgets is returned to the queue in its second attempt. -/
theorem secondAttempt_isSwept :
    swiftLimits.validate limitCeiling = .ok () ∧
      ∃ execute : ℕ → Attempt, (∀ n, (execute n).Within swift swiftLimits false) ∧ ExecutingAt [] execute 165 ∧
        (sweepStale [(swiftSubmission.row 0).claim 0 "w"] 165).map Row.status = [.queued] := by
  have hwithin : swiftFault.Within swift swiftLimits false := by
    constructor <;> norm_num [swiftFault, compileBudget, compileWall, LanguageSpec.willCompile, swift, swiftLimits]
  have hretryable : (SandboxError.wait "waitpid").isRetryable = true := rfl
  have htotal : (executeWithRetry (fun _ => swiftFault) 1).2 = _ :=
    executeWithRetry_eq hretryable (fun _ => rfl) (fun _ => rfl) 1 (by decide)
  refine ⟨by decide +kernel, fun _ => swiftFault, fun _ => hwithin, ?_, by decide +kernel⟩
  rw [ExecutingAt, htotal]
  norm_num [swiftFault, Attempt.elapsed, maxSandboxAttempts, retryPause]

end ZeroCode.Worker
