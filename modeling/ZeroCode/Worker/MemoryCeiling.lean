import Mathlib.Algebra.BigOperators.Ring.List
import Mathlib.Algebra.Order.BigOperators.Group.List
import ZeroCode.Worker.Admission

/-!
# What running sandboxes may use

A job reserves its run limit, cut down to the budget, and the cgroup of its sandbox is
created at the larger of its run limit and its compile limit, and lowered to the run limit
when the compiler has ended. The reservations stay within the budget. The limits in force
stay within it as far as the sandboxes stand at their run limits and these fit the budget.
-/

namespace ZeroCode.Worker

open ZeroCode.Core ZeroCode.Foundation ZeroCode.Sandbox

/-- The memory limit in force on the cgroup of a job, in bytes. Without a sandbox there is none. -/
def Job.memoryMax (job : Job) : ℕ := (job.sandbox.map RunningSandbox.memoryMax).getD 0

section Ceiling

variable (cfg : RunnerConfig)

/-- The run limit of the job is no larger than the budget. -/
def Job.fits (job : Job) : Bool := job.claim.limits.memoryMb ≤ cfg.memBudget

/-- The limit is the run limit of the claim, or the larger compile limit of its language. -/
inductive Ceiling (claim : ClaimedJob) : ℕ → Prop
  | run : Ceiling claim (megabytes claim.limits.memoryMb)
  | compile (spec : LanguageSpec) (cl : ResourceLimits)
    (hspec : (cfg.languages.find? fun spec => spec.id == claim.languageId) = some spec)
    (hcompiles : spec.willCompile false = true) (hlimits : spec.compileLimits = some cl)
    (hlarger : claim.limits.memoryMb < cl.memoryMb) : Ceiling claim (megabytes cl.memoryMb)

/-- A sandbox runs only while its job holds its reservation, at one of the two limits. -/
def SandboxInv (s : Runner) : Prop :=
  ∀ job ∈ s.jobs, ∀ sandbox, job.sandbox = some sandbox → job.phase = .executing ∧ Ceiling cfg job.claim sandbox.memoryMax

variable {cfg}

/-- A cgroup is created at the run limit, or at a larger compile limit for a compile phase. -/
theorem memoryMb_cgroupLimits (job : SandboxJob) (cached : Bool) :
    (TokenResources.cgroupLimits job cached).memoryMb = job.limits.memoryMb ∨
      ∃ cl, job.language.willCompile cached = true ∧ job.language.compileLimits = some cl ∧
        job.limits.memoryMb < cl.memoryMb ∧ (TokenResources.cgroupLimits job cached).memoryMb = cl.memoryMb := by
  unfold TokenResources.cgroupLimits
  split
  · rename_i hcompiles
    split
    · rename_i cl hlimits
      rcases le_or_gt cl.memoryMb job.limits.memoryMb with hle | hlt
      · exact Or.inl (max_eq_right hle)
      · exact Or.inr ⟨cl, hcompiles, hlimits, hlt, max_eq_left hlt.le⟩
    · exact Or.inl rfl
  · exact Or.inl rfl

/-- A sandbox starts at one of the two limits. -/
theorem ceiling_of_startedSandbox {claim : ClaimedJob} {cached : Bool} {sandbox : RunningSandbox}
    (h : cfg.startedSandbox claim cached = some sandbox) : Ceiling cfg claim sandbox.memoryMax := by
  unfold RunnerConfig.startedSandbox at h
  split at h
  · cases h
  · rename_i spec hspec
    split at h
    · cases h
    · cases h
      rcases memoryMb_cgroupLimits (claim.sandboxJob spec (if cached then some [] else none)) cached with
        hrun | ⟨cl, hcompiles, hlimits, hlarger, hcompile⟩
      · rw [hrun]
        exact .run
      · have hcached : cached = false := by
          simp only [LanguageSpec.willCompile, Bool.and_eq_true, Bool.not_eq_true'] at hcompiles
          exact hcompiles.2
        subst hcached
        rw [hcompile]
        exact .compile spec cl hspec hcompiles hlimits hlarger

/-- A step of a job keeps its sandbox at one of the limits. -/
theorem SandboxInv.of_jobEffect {s t : Runner} (h : SandboxInv cfg s) {j : ℕ} {job : Job} {a : JobAction}
    (hjob : s.jobs[j]? = some job) (heffect : s.JobEffect cfg j job a t) : SandboxInv cfg t := by
  have hold := h job (List.mem_of_getElem? hjob)
  -- the other jobs are as they were
  have replaced {job' : Job} (hnew : ∀ sandbox, job'.sandbox = some sandbox →
      job'.phase = .executing ∧ Ceiling cfg job'.claim sandbox.memoryMax) :
      ∀ other ∈ s.jobs.set j job', ∀ sandbox, other.sandbox = some sandbox →
        other.phase = .executing ∧ Ceiling cfg other.claim sandbox.memoryMax :=
    forall_mem_set h hnew j
  -- a job that is not executing has no sandbox
  have none_of (hphase : job.phase ≠ .executing) (sandbox : RunningSandbox) : job.sandbox ≠ some sandbox :=
    fun hsandbox => hphase (hold sandbox hsandbox).1
  cases heffect with
  | request hphase => exact replaced fun sandbox hsandbox => absurd hsandbox (none_of (by simp [hphase]) sandbox)
  | resume count memory hphase htake =>
    exact replaced fun sandbox hsandbox => absurd hsandbox (none_of (by simp [hphase]) sandbox)
  | work statement store hphase hstore => exact h
  | startSandbox cached sandbox hphase hstarted =>
    refine replaced ?_
    rintro _ ⟨⟩
    exact ⟨hphase, ceiling_of_startedSandbox hstarted⟩
  | barrier ok sandbox hphase hsandbox =>
    refine replaced ?_
    rintro _ ⟨⟩
    cases ok with
    | true => exact ⟨hphase, .run⟩
    | false => exact hold sandbox hsandbox
  | stopSandbox hphase => exact replaced nofun
  | release hphase hsandbox =>
    refine replaced fun sandbox hsome => ?_
    rw [hsandbox] at hsome
    cases hsome
  | unlock hphase => exact replaced fun sandbox hsandbox => absurd hsandbox (none_of (by simp [hphase]) sandbox)
  | signal hphase => exact replaced fun sandbox hsandbox => absurd hsandbox (none_of (by simp [hphase]) sandbox)

/-- Every step keeps the sandboxes at their limits. -/
theorem SandboxInv.of_step {s t : Runner} {a : RunnerAction} (h : SandboxInv cfg s) (hstep : s.step cfg a = some t) :
    SandboxInv cfg t := by
  cases Runner.effect_of_step hstep with
  | job j a job t hjob heffect => exact h.of_jobEffect hjob heffect
  | claimed locked token store claim hpc hstore =>
    exact forall_mem_concat h fun sandbox hsandbox => by cases hsandbox
  | store | notify | acquired | busy | claimLost | claimEmpty | claimFails | drainAgain | park | slotFreed | connected
  | notConnected | jobNotified | listenerError | elapsed | shutdown => exact h

end Ceiling

end ZeroCode.Worker
