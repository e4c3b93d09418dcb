import ZeroCode.Api.Create

/-!
# The limits of a request under the ceiling

The limits of a request are the defaults of the language with the request's own times and
memory in their place. They are checked against the ceiling field by field. The caps of the
two outputs are no part of the check, so what is accepted is within the ceiling exactly when
the defaults already keep these two caps, or something else is out of range.
-/

namespace ZeroCode.Api

open ZeroCode.Core

/-- Apply the limits of the request to the defaults, and check the ceiling. -/
def SubmissionRequest.resolveLimits (req : SubmissionRequest) (default ceiling : ResourceLimits) :
    Except LimitOutOfRange ResourceLimits :=
  let lim := default
  let lim := match req.cpuTimeLimit with
    | some v => { lim with cpuTime := v }
    | none => lim
  let lim := match req.wallTimeLimit with
    | some v => { lim with wallTime := v }
    | none => lim
  let lim := match req.memoryLimitMb with
    | some v => { lim with memoryMb := v }
    | none => lim
  match lim.validate ceiling with
  | .ok () => .ok lim
  | .error e => .error e

/-- Each limit is the request's own where it gives one, and the default's otherwise. -/
structure SubmissionRequest.Overrides (req : SubmissionRequest) (default limits : ResourceLimits) : Prop where
  cpuTime : limits.cpuTime = req.cpuTimeLimit.getD default.cpuTime
  wallTime : limits.wallTime = req.wallTimeLimit.getD default.wallTime
  memoryMb : limits.memoryMb = req.memoryLimitMb.getD default.memoryMb
  maxPids : limits.maxPids = default.maxPids
  maxStdout : limits.maxStdout = default.maxStdout
  maxStderr : limits.maxStderr = default.maxStderr
  enableNetwork : limits.enableNetwork = default.enableNetwork

/-- Limits that keep the ceiling in every field. -/
structure WithinCeiling (limits ceiling : ResourceLimits) : Prop where
  checked : limits.Checked ceiling
  maxStdout : limits.maxStdout ≤ ceiling.maxStdout
  maxStderr : limits.maxStderr ≤ ceiling.maxStderr

/-- What a request asks for is determined. -/
theorem SubmissionRequest.Overrides.unique {req : SubmissionRequest} {default limits limits' : ResourceLimits}
    (h : req.Overrides default limits) (h' : req.Overrides default limits') : limits = limits' := by
  cases limits
  cases limits'
  simp only [ResourceLimits.mk.injEq]
  exact ⟨h.cpuTime.trans h'.cpuTime.symm, h.wallTime.trans h'.wallTime.symm, h.memoryMb.trans h'.memoryMb.symm,
    h.maxPids.trans h'.maxPids.symm, h.maxStdout.trans h'.maxStdout.symm, h.maxStderr.trans h'.maxStderr.symm,
    h.enableNetwork.trans h'.enableNetwork.symm⟩

/-- The limits that are checked are those the request asks for. -/
theorem SubmissionRequest.resolveLimits_eq_validate (req : SubmissionRequest) (default ceiling : ResourceLimits) :
    ∃ limits, req.Overrides default limits ∧
      req.resolveLimits default ceiling = (limits.validate ceiling).map fun _ => limits := by
  refine ⟨{ default with
    cpuTime := req.cpuTimeLimit.getD default.cpuTime
    wallTime := req.wallTimeLimit.getD default.wallTime
    memoryMb := req.memoryLimitMb.getD default.memoryMb }, ⟨rfl, rfl, rfl, rfl, rfl, rfl, rfl⟩, ?_⟩
  have hmatch (limits : ResourceLimits) :
      (match limits.validate ceiling with
        | .ok () => (.ok limits : Except LimitOutOfRange ResourceLimits)
        | .error e => .error e) = (limits.validate ceiling).map fun _ => limits := by
    cases limits.validate ceiling <;> rfl
  unfold SubmissionRequest.resolveLimits
  cases req.cpuTimeLimit <;> cases req.wallTimeLimit <;> cases req.memoryLimitMb <;> exact hmatch _

/-- Resolving succeeds with the limits asked for, when they pass the check. -/
theorem SubmissionRequest.resolveLimits_eq_ok_iff {req : SubmissionRequest} {default ceiling limits : ResourceLimits} :
    req.resolveLimits default ceiling = .ok limits ↔ req.Overrides default limits ∧ limits.Checked ceiling := by
  obtain ⟨asked, hasked, hresolve⟩ := req.resolveLimits_eq_validate default ceiling
  rw [hresolve, ← ResourceLimits.validate_eq_ok_iff]
  constructor
  · intro h
    cases hvalid : asked.validate ceiling with
    | error e =>
      rw [hvalid] at h
      cases h
    | ok passed =>
      rw [hvalid] at h
      cases h
      exact ⟨hasked, hvalid⟩
  · rintro ⟨hoverrides, hvalid⟩
    rw [hasked.unique hoverrides, hvalid]
    rfl

/-- The handler resolves the limits of a request the same way. -/
theorem SubmissionRequest.resolveLimits_eq (req : SubmissionRequest) (api : AppState) (spec : LanguageSpec) :
    api.resolveLimits spec req.cpuTimeLimit req.wallTimeLimit req.memoryLimitMb =
      (req.resolveLimits (spec.defaultLimits.getD .default) api.limitCeiling).mapError .limitOutOfRange := by
  obtain ⟨asked, hasked, hresolve⟩ :=
    req.resolveLimits_eq_validate (spec.defaultLimits.getD .default) api.limitCeiling
  have hsame := hasked.unique (⟨rfl, rfl, rfl, rfl, rfl, rfl, rfl⟩ : req.Overrides (spec.defaultLimits.getD .default)
    { spec.defaultLimits.getD .default with
      cpuTime := req.cpuTimeLimit.getD (spec.defaultLimits.getD .default).cpuTime
      wallTime := req.wallTimeLimit.getD (spec.defaultLimits.getD .default).wallTime
      memoryMb := req.memoryLimitMb.getD (spec.defaultLimits.getD .default).memoryMb })
  rw [hresolve, hsame]
  unfold AppState.resolveLimits
  simp only
  cases ResourceLimits.validate _ api.limitCeiling <;> rfl

/-- Resolving gives only limits within the ceiling, and gives all of them, exactly when the defaults keep the caps of
the outputs or the rest of what is asked for fails the check. -/
theorem resolveLimits_sound_complete_iff (req : SubmissionRequest) (default ceiling : ResourceLimits) :
    ((∀ limits, req.resolveLimits default ceiling = .ok limits →
          req.Overrides default limits ∧ WithinCeiling limits ceiling) ∧
        ∀ limits, req.Overrides default limits → WithinCeiling limits ceiling →
          req.resolveLimits default ceiling = .ok limits) ↔
      (default.maxStdout ≤ ceiling.maxStdout ∧ default.maxStderr ≤ ceiling.maxStderr) ∨
        ∀ limits, req.Overrides default limits → ¬ limits.Checked ceiling := by
  simp only [SubmissionRequest.resolveLimits_eq_ok_iff]
  constructor
  · rintro ⟨hsound, -⟩
    by_cases hchecked : ∃ limits, req.Overrides default limits ∧ limits.Checked ceiling
    · obtain ⟨limits, hpassed⟩ := hchecked
      obtain ⟨hoverrides, hwithin⟩ := hsound limits hpassed
      exact Or.inl ⟨hoverrides.maxStdout ▸ hwithin.maxStdout, hoverrides.maxStderr ▸ hwithin.maxStderr⟩
    · exact Or.inr fun limits hoverrides hlimits => hchecked ⟨limits, hoverrides, hlimits⟩
  · intro hcaps
    refine ⟨fun limits hpassed => ?_, fun limits hoverrides hwithin => ⟨hoverrides, hwithin.checked⟩⟩
    obtain ⟨hoverrides, hchecked⟩ := hpassed
    rcases hcaps with ⟨hstdout, hstderr⟩ | hfails
    · exact ⟨hoverrides, hchecked, hoverrides.maxStdout ▸ hstdout, hoverrides.maxStderr ▸ hstderr⟩
    · exact absurd hchecked (hfails limits hoverrides)

/-- The ceiling of a service that caps the outputs at 32 KiB. -/
def narrowCeiling : ResourceLimits := { ResourceLimits.default with maxStdout := 32 * 1024, maxStderr := 32 * 1024 }

/-- A request without limits of its own gets the default caps of 64 KiB under a ceiling of 32 KiB. -/
theorem caps_above_ceiling_accepted :
    pythonRequest.resolveLimits .default narrowCeiling = .ok .default ∧
      ¬ ResourceLimits.default.maxStdout ≤ narrowCeiling.maxStdout := by
  decide +kernel

end ZeroCode.Api
