import ZeroCode.Foundation.Template
import ZeroCode.Sandbox.Command

/-!
# The limit placeholders

The five replacements of `substituteLimits` are those of a template: a printed limit is
made of digits and a point, which no placeholder contains. A string therefore depends on
the limits exactly when one of the placeholders occurs in it, and an interior NUL is
neither added nor removed by the substitution.
-/

namespace ZeroCode.Sandbox

open ZeroCode.Core ZeroCode.Foundation

/-- A limit that command and environment strings can ask for. -/
inductive Placeholder
  | memoryMb
  | jvmHeapMb
  | cpuTime
  | wallTime
  | maxPids
  deriving DecidableEq, Repr

/-- The placeholders in the order in which they are replaced. -/
def Placeholder.all : List Placeholder := [.memoryMb, .jvmHeapMb, .cpuTime, .wallTime, .maxPids]

/-- What stands for a limit in a string. -/
def Placeholder.pattern : Placeholder → List Char
  | .memoryMb => "${memory_mb}".toList
  | .jvmHeapMb => "${jvm_heap_mb}".toList
  | .cpuTime => "${cpu_time}".toList
  | .wallTime => "${wall_time}".toList
  | .maxPids => "${max_pids}".toList

/-- What is put in its place. -/
def Placeholder.value (limits : ResourceLimits) : Placeholder → List Char
  | .memoryMb => (toString limits.memoryMb).toList
  | .jvmHeapMb => (toString (max (limits.memoryMb - 256) 32)).toList
  | .cpuTime => (formatMillis limits.cpuTime).toList
  | .wallTime => (formatMillis limits.wallTime).toList
  | .maxPids => (toString limits.maxPids).toList

/-- A placeholder occurs in the string. -/
def MentionsLimit (s : String) : Prop := ∃ k ∈ Placeholder.all, k.pattern <:+: s.toList

instance (s : String) : Decidable (MentionsLimit s) :=
  inferInstanceAs (Decidable (∃ k ∈ Placeholder.all, k.pattern <:+: s.toList))

/-- Replacing characters is replacing symbols. -/
theorem replaceChars_eq (pattern replacement : List Char) (skip : ℕ) (cs : List Char) :
    replaceChars pattern replacement skip cs = replaceFrom pattern replacement skip cs := by
  induction cs generalizing skip with
  | nil => cases skip <;> rfl
  | cons c rest ih =>
    cases skip with
    | zero => simp only [replaceChars, replaceFrom, ih]
    | succ skip => simp only [replaceChars, replaceFrom, ih]

/-- Substituting the limits fills the placeholders in. -/
theorem substituteLimits_toList (s : String) (limits : ResourceLimits) :
    (substituteLimits s limits).toList =
      substitute Placeholder.pattern (Placeholder.value limits) Placeholder.all s.toList := by
  simp only [substituteLimits, replace, String.toList_ofList, replaceChars_eq]
  rfl

/-- A character of a printed limit. -/
def isLimitChar (c : Char) : Bool := c.isDigit || c == '.'

/-- A printed number consists of digits. -/
theorem isLimitChar_of_mem_toString {n : ℕ} {c : Char} (h : c ∈ (toString n).toList) : isLimitChar c = true := by
  have hdigits : (toString n).toList = Nat.toDigits 10 n := by simp
  rw [hdigits] at h
  simp [isLimitChar, Nat.isDigit_of_mem_toDigits (by decide) (by decide) h]

/-- Printed seconds consist of digits and a point. -/
theorem isLimitChar_of_mem_formatMillis {seconds : ℚ} {c : Char} (h : c ∈ (formatMillis seconds).toList) :
    isLimitChar c = true := by
  simp only [formatMillis, String.toList_append, String.toList_ofList, List.mem_append] at h
  rcases h with ((h | h) | h) | h
  · exact isLimitChar_of_mem_toString h
  · rw [show c = '.' by simpa using h]
    rfl
  · rw [List.eq_of_mem_replicate h]
    rfl
  · exact isLimitChar_of_mem_toString h

/-- No placeholder contains a character of a printed limit, or a NUL. -/
theorem pattern_not_limitChar (k : Placeholder) : ∀ c ∈ k.pattern, isLimitChar c = false ∧ c ≠ Char.ofNat 0 := by
  have hall : (k.pattern.all fun c => !isLimitChar c && c != Char.ofNat 0) = true := by cases k <;> decide
  simpa using hall

/-- Every printed limit is made of such characters. -/
theorem value_limitChar (limits : ResourceLimits) (k : Placeholder) :
    ∀ c ∈ Placeholder.value limits k, isLimitChar c = true := by
  intro c hc
  cases k with
  | memoryMb | jvmHeapMb | maxPids => exact isLimitChar_of_mem_toString hc
  | cpuTime | wallTime => exact isLimitChar_of_mem_formatMillis hc

/-- The printed limits fit the template. -/
theorem value_fresh (limits : ResourceLimits) : Fresh Placeholder.pattern (Placeholder.value limits) := by
  refine ⟨fun k => ?_, fun j k c hc hpattern => ?_⟩
  · cases k with
    | memoryMb | jvmHeapMb | maxPids => simp [Placeholder.value]
    | cpuTime | wallTime => simp [Placeholder.value, formatMillis]
  · have hfalse := (pattern_not_limitChar k c hpattern).1
    rw [value_limitChar limits j c hc] at hfalse
    cases hfalse

/-- No placeholder is empty. -/
theorem pattern_ne_nil : ∀ k ∈ Placeholder.all, k.pattern ≠ [] := by decide

/-- The substitution neither adds nor removes a NUL. -/
theorem nul_mem_substituteLimits_iff (s : String) (limits : ResourceLimits) :
    Char.ofNat 0 ∈ (substituteLimits s limits).toList ↔ Char.ofNat 0 ∈ s.toList := by
  rw [substituteLimits_toList]
  refine mem_substitute_iff (fun k h => (pattern_not_limitChar k _ h).2 rfl) (fun k h => ?_) pattern_ne_nil _
  have hlimit := value_limitChar limits k _ h
  revert hlimit
  decide

/-- Limits that print short. -/
def smallLimits : ResourceLimits :=
  { ResourceLimits.default with cpuTime := 1, wallTime := 1, memoryMb := 1, maxPids := 1 }

/-- Limits that print long. -/
def largeLimits : ResourceLimits :=
  { ResourceLimits.default with cpuTime := 10, wallTime := 10, memoryMb := 1000, maxPids := 10 }

/-- Every limit prints longer when it is large. -/
theorem value_length_lt (k : Placeholder) :
    (Placeholder.value smallLimits k).length < (Placeholder.value largeLimits k).length := by
  cases k <;> decide +kernel

/-- A string depends on the limits exactly when it mentions one. -/
theorem substituteLimits_small_eq_large_iff (s : String) :
    substituteLimits s smallLimits = substituteLimits s largeLimits ↔ ¬ MentionsLimit s := by
  rw [← String.toList_inj, substituteLimits_toList, substituteLimits_toList,
    substitute_eq_substitute_iff (value_fresh _) (value_fresh _) value_length_lt pattern_ne_nil, MentionsLimit]
  simp only [not_exists, not_and]

/-- A string that mentions no limit stays as it is. -/
theorem substituteLimits_eq_self {s : String} (h : ¬ MentionsLimit s) (limits : ResourceLimits) :
    substituteLimits s limits = s := by
  rw [← String.toList_inj, substituteLimits_toList]
  exact substitute_eq_self fun k hk hinfix => h ⟨k, hk, hinfix⟩

end ZeroCode.Sandbox
