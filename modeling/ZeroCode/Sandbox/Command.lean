import ZeroCode.Core.Language

/-!
# Command lines and environment of a job

The argument vectors and the environment handed to `execvpe` are built from the
language specification by replacing limit placeholders. A string with an interior
NUL has no C form and is silently dropped from its vector.
-/

namespace ZeroCode.Sandbox

open ZeroCode.Core

/-- A string that can be passed to `execvpe`: it contains no NUL character. -/
structure CString where
  text : String
  noNul : Char.ofNat 0 ∉ text.toList
  deriving DecidableEq

/-- Convert a string, failing on an interior NUL. -/
def CString.new (text : String) : Option CString :=
  if h : Char.ofNat 0 ∈ text.toList then none else some ⟨text, h⟩

/-- Replace the occurrences of `pattern` from left to right, skipping the characters already matched. -/
def replaceChars (pattern replacement : List Char) : ℕ → List Char → List Char
  | _, [] => []
  | skip + 1, _ :: rest => replaceChars pattern replacement skip rest
  | 0, c :: rest =>
    if pattern.isPrefixOf (c :: rest) then
      replacement ++ replaceChars pattern replacement (pattern.length - 1) rest
    else c :: replaceChars pattern replacement 0 rest

/-- Replace every occurrence of a non-empty pattern. -/
def replace (input pattern replacement : String) : String :=
  String.ofList (replaceChars pattern.toList replacement.toList 0 input.toList)

/-- Print a non-negative number of seconds with three decimals. -/
def formatMillis (seconds : ℚ) : String :=
  let millis := (roundHalfEven (seconds * 1000)).toNat
  let fraction := toString (millis % 1000)
  toString (millis / 1000) ++ "." ++ String.ofList (List.replicate (3 - fraction.length) '0') ++ fraction

/-- Substitute the limit placeholders of a command or environment string. -/
def substituteLimits (input : String) (limits : ResourceLimits) : String :=
  let jvmHeap := max (limits.memoryMb - 256) 32
  let s := replace input "${memory_mb}" (toString limits.memoryMb)
  let s := replace s "${jvm_heap_mb}" (toString jvmHeap)
  let s := replace s "${cpu_time}" (formatMillis limits.cpuTime)
  let s := replace s "${wall_time}" (formatMillis limits.wallTime)
  replace s "${max_pids}" (toString limits.maxPids)

/-- The argument vector of the run phase. -/
def buildArgv (spec : LanguageSpec) (limits : ResourceLimits) : List CString :=
  spec.runCmd.filterMap fun s => CString.new (substituteLimits s limits)

/-- The argument vector of the compile phase, absent for an empty compile command. -/
def buildCompileArgv (spec : LanguageSpec) (limits : ResourceLimits) : Option (List CString) :=
  match spec.compileCmd with
  | none => none
  | some cmd =>
    if cmd.isEmpty then none
    else some (cmd.filterMap fun s => CString.new (substituteLimits s limits))

/-- The environment of both phases: a fixed base, then the variables of the language. -/
def buildEnv (spec : LanguageSpec) (limits : ResourceLimits) : List CString :=
  [⟨"LANG=C.UTF-8", by decide⟩, ⟨"LC_ALL=C.UTF-8", by decide⟩, ⟨"HOME=/tmp", by decide⟩,
    ⟨"PATH=/usr/local/bin:/usr/bin:/bin", by decide⟩] ++
    spec.env.filterMap fun (k, v) => CString.new (k ++ "=" ++ substituteLimits v limits)

/-- The compile phase the child enters: a non-empty argument vector and no cached artifact. -/
def compilePhase (compileArgv : Option (List CString)) (hasCachedBinary : Bool) : Option (List CString) :=
  match compileArgv with
  | none => none
  | some argv => if !argv.isEmpty && !hasCachedBinary then some argv else none

/-- A compile phase the child enters was announced to the parent by `willCompile`. -/
theorem willCompile_of_compilePhase {spec : LanguageSpec} {limits : ResourceLimits}
    {hasCachedBinary : Bool} {argv : List CString}
    (h : compilePhase (buildCompileArgv spec limits) hasCachedBinary = some argv) :
    spec.willCompile hasCachedBinary = true := by
  unfold buildCompileArgv at h
  cases hcmd : spec.compileCmd with
  | none => simp [hcmd, compilePhase] at h
  | some cmd =>
    cases cmd with
    | nil => simp [hcmd, compilePhase] at h
    | cons first rest =>
      cases hasCachedBinary with
      | true => simp [hcmd, compilePhase] at h
      | false => simp [LanguageSpec.willCompile, hcmd]

/-- The argument vector of a compile phase is never empty. -/
theorem compilePhase_ne_nil {compileArgv : Option (List CString)} {hasCachedBinary : Bool}
    {argv : List CString} (h : compilePhase compileArgv hasCachedBinary = some argv) : argv ≠ [] := by
  unfold compilePhase at h
  split at h
  · cases h
  · split at h
    · rename_i condition
      cases h
      intro hsame
      subst hsame
      simp at condition
    · cases h

end ZeroCode.Sandbox
