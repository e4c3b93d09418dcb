import Mathlib.Data.Rat.Floor
import ZeroCode.Foundation.Fallible

/-!
# Resource limits and language specifications

The declarative description of a language and the limits one submission runs under.
Seconds are exact rationals and a duration is its number of nanoseconds; all other
limits are the natural numbers the source keeps in 32 bits.
-/

namespace ZeroCode.Core

open ZeroCode.Foundation

/-- The 128-bit value of a submission token. -/
abbrev Token := ℕ

/-- A byte string. -/
abbrev Bytes := List UInt8

/-- A span of time in nanoseconds. -/
abbrev Duration := ℕ

/-- Round to the nearest integer, ties to the even one. -/
def roundHalfEven (q : ℚ) : ℤ :=
  let below := ⌊q⌋
  if q - below < 1 / 2 then below
  else if 1 / 2 < q - below then below + 1
  else if below % 2 = 0 then below else below + 1

/-- Convert seconds to the nearest nanosecond. -/
def Duration.fromSecs (seconds : ℚ) : Duration := (roundHalfEven (seconds * 1000000000)).toNat

/-- Per-submission resource ceilings. -/
structure ResourceLimits where
  cpuTime : ℚ
  wallTime : ℚ
  memoryMb : ℕ
  maxPids : ℕ
  maxStdout : ℕ
  maxStderr : ℕ
  enableNetwork : Bool
  deriving DecidableEq, Repr

/-- The limits used when neither the language nor the request sets one. -/
def ResourceLimits.default : ResourceLimits where
  cpuTime := 2
  wallTime := 5
  memoryMb := 128
  maxPids := 64
  maxStdout := 64 * 1024
  maxStderr := 64 * 1024
  enableNetwork := false

/-- A limit outside its permitted range, with the field it names. -/
structure LimitOutOfRange where
  field : String
  value : ℚ
  min : ℚ
  max : ℚ
  deriving DecidableEq, Repr

/-- Reject a value outside `min..max`. -/
def checkRange (field : String) (value min max : ℚ) : Except LimitOutOfRange Unit :=
  if value < min ∨ max < value then .error ⟨field, value, min, max⟩ else .ok ()

/-- Check the limits against the system ceiling, in the order the fields are checked. -/
def ResourceLimits.validate (limits ceiling : ResourceLimits) : Except LimitOutOfRange Unit := do
  checkRange "cpu_time" limits.cpuTime (1 / 10) ceiling.cpuTime
  checkRange "wall_time" limits.wallTime (1 / 10) ceiling.wallTime
  checkRange "memory_mb" limits.memoryMb 1 ceiling.memoryMb
  checkRange "max_pids" limits.maxPids 1 ceiling.maxPids
  if limits.wallTime < limits.cpuTime then
    throw ⟨"wall_time", limits.wallTime, limits.cpuTime, ceiling.wallTime⟩
  if limits.enableNetwork && !ceiling.enableNetwork then
    throw ⟨"enable_network", 1, 0, 0⟩

/-- How one language is compiled and run. -/
structure LanguageSpec where
  id : ℕ
  sourceFile : String
  compileCmd : Option (List String)
  runCmd : List String
  env : List (String × String)
  defaultLimits : Option ResourceLimits
  compileLimits : Option ResourceLimits
  deriving DecidableEq, Repr

/-- A compile phase will run: a non-empty compile command and no cached artifact. -/
def LanguageSpec.willCompile (spec : LanguageSpec) (hasCachedBinary : Bool) : Bool :=
  (match spec.compileCmd with | some c => !c.isEmpty | none => false) && !hasCachedBinary

/-- What the check against a ceiling demands of limits. -/
structure ResourceLimits.Checked (limits ceiling : ResourceLimits) : Prop where
  cpuTime : 1 / 10 ≤ limits.cpuTime ∧ limits.cpuTime ≤ ceiling.cpuTime
  wallTime : 1 / 10 ≤ limits.wallTime ∧ limits.wallTime ≤ ceiling.wallTime
  memoryMb : 1 ≤ limits.memoryMb ∧ limits.memoryMb ≤ ceiling.memoryMb
  maxPids : 1 ≤ limits.maxPids ∧ limits.maxPids ≤ ceiling.maxPids
  wallCoversCpu : limits.cpuTime ≤ limits.wallTime
  network : limits.enableNetwork = true → ceiling.enableNetwork = true

/-- A passed range check bounds the value from both sides. -/
theorem checkRange_eq_ok_iff {field : String} {value min max : ℚ} {passed : Unit} :
    checkRange field value min max = .ok passed ↔ min ≤ value ∧ value ≤ max := by
  unfold checkRange
  split
  · rename_i outside
    constructor
    · intro h
      cases h
    · rintro ⟨low, high⟩
      rcases outside with below | above
      · exact absurd low (not_le.mpr below)
      · exact absurd high (not_le.mpr above)
  · rename_i inside
    obtain ⟨low, high⟩ := not_or.mp inside
    exact ⟨fun _ => ⟨not_lt.mp low, not_lt.mp high⟩, fun _ => rfl⟩

/-- The check accepts exactly the limits that meet its demands. -/
theorem ResourceLimits.validate_eq_ok_iff {limits ceiling : ResourceLimits} :
    limits.validate ceiling = .ok () ↔ limits.Checked ceiling := by
  simp only [ResourceLimits.validate, bind_eq_ok_iff, checkRange_eq_ok_iff]
  constructor
  · rintro ⟨_, cpu, _, wall, _, memory, _, pids, rest⟩
    split at rest
    · cases rest
    · rename_i covers
      split at rest
      · cases rest
      · rename_i network
        have hnetwork : limits.enableNetwork = true → ceiling.enableNetwork = true := by simpa using network
        exact ⟨cpu, wall, by exact_mod_cast memory, by exact_mod_cast pids, not_lt.mp covers, hnetwork⟩
  · intro h
    have hnetwork : ¬ (limits.enableNetwork && !ceiling.enableNetwork) = true := by simpa using h.network
    refine ⟨(), h.cpuTime, (), h.wallTime, (), by exact_mod_cast h.memoryMb, (), by exact_mod_cast h.maxPids, ?_⟩
    rw [if_neg (not_lt.mpr h.wallCoversCpu), if_neg hnetwork]
    rfl

/-- Accepted limits give the program a positive wall budget that covers its CPU budget. -/
theorem ResourceLimits.validate_wallTime {limits ceiling : ResourceLimits}
    (h : limits.validate ceiling = .ok ()) :
    1 / 10 ≤ limits.wallTime ∧ limits.wallTime ≤ ceiling.wallTime ∧ limits.cpuTime ≤ limits.wallTime := by
  have checked := ResourceLimits.validate_eq_ok_iff.mp h
  exact ⟨checked.wallTime.1, checked.wallTime.2, checked.wallCoversCpu⟩

end ZeroCode.Core
