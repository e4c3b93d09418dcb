import ZeroCode.Core.Status
import ZeroCode.Foundation.Json

/-!
# Statuses as JSON

The derived encodings of the status vocabulary. A status is tagged by `kind` and carries
its `detail`; a signal is tagged by `name` and carries its `raw` number. Every status whose
numbers fit in 32 bits is read back from what was written.
-/

namespace ZeroCode.Core

open ZeroCode.Foundation

/-- The variants of the time limits. -/
def timeLimitKindVariants : List (Variant TimeLimitKind) := [.unit "Wall" .wall, .unit "Cpu" .cpu]

/-- The name of a time limit as a value. -/
def TimeLimitKind.toValue : TimeLimitKind → Json
  | .wall => .string (snakeCase "Wall")
  | .cpu => .string (snakeCase "Cpu")

/-- The keys of a signal. -/
def signalTagging : Tagging := ⟨"name", "raw"⟩

/-- The variants of the signals. -/
def signalVariants : List (Variant Signal) :=
  [.unit "Sigsegv" .sigsegv, .unit "Sigfpe" .sigfpe, .unit "Sigabrt" .sigabrt, .unit "Sigxfsz" .sigxfsz,
    .unit "Sigpipe" .sigpipe, .unit "Sigkill" .sigkill, .unit "Sigterm" .sigterm, .unit "Sigill" .sigill,
    .unit "Sigbus" .sigbus, .newtype "Other" fun raw => raw.toI32.map .other]

/-- A signal as a value. -/
def Signal.toValue : Signal → Json
  | .sigsegv => signalTagging.toValue (snakeCase "Sigsegv") none
  | .sigfpe => signalTagging.toValue (snakeCase "Sigfpe") none
  | .sigabrt => signalTagging.toValue (snakeCase "Sigabrt") none
  | .sigxfsz => signalTagging.toValue (snakeCase "Sigxfsz") none
  | .sigpipe => signalTagging.toValue (snakeCase "Sigpipe") none
  | .sigkill => signalTagging.toValue (snakeCase "Sigkill") none
  | .sigterm => signalTagging.toValue (snakeCase "Sigterm") none
  | .sigill => signalTagging.toValue (snakeCase "Sigill") none
  | .sigbus => signalTagging.toValue (snakeCase "Sigbus") none
  | .other n => signalTagging.toValue (snakeCase "Other") (some (.number n))

/-- Read a signal. -/
def Signal.fromValue : Json → Option Signal := signalTagging.fromValue signalVariants

/-- The keys of a status. -/
def statusTagging : Tagging := ⟨"kind", "detail"⟩

/-- The variants of the statuses. -/
def statusVariants : List (Variant Status) :=
  [.unit "Queued" .queued, .unit "Processing" .processing, .unit "Accepted" .accepted,
    .newtype "TimeLimitExceeded" fun detail => (enumFromValue timeLimitKindVariants detail).map .timeLimitExceeded,
    .unit "CompileError" .compileError, .unit "MemoryLimitExceeded" .memoryLimitExceeded,
    .unit "OutputLimitExceeded" .outputLimitExceeded,
    .newtype "RuntimeError" fun detail => (Signal.fromValue detail).map .runtimeError,
    .newtype "NonZeroExit" fun detail => detail.toI32.map .nonZeroExit, .unit "SandboxFailure" .sandboxFailure,
    .unit "InternalError" .internalError, .unit "Cancelled" .cancelled, .unit "Expired" .expired]

/-- A status as a value. -/
def Status.toValue : Status → Json
  | .queued => statusTagging.toValue (snakeCase "Queued") none
  | .processing => statusTagging.toValue (snakeCase "Processing") none
  | .accepted => statusTagging.toValue (snakeCase "Accepted") none
  | .timeLimitExceeded kind => statusTagging.toValue (snakeCase "TimeLimitExceeded") (some kind.toValue)
  | .compileError => statusTagging.toValue (snakeCase "CompileError") none
  | .memoryLimitExceeded => statusTagging.toValue (snakeCase "MemoryLimitExceeded") none
  | .outputLimitExceeded => statusTagging.toValue (snakeCase "OutputLimitExceeded") none
  | .runtimeError sig => statusTagging.toValue (snakeCase "RuntimeError") (some sig.toValue)
  | .nonZeroExit code => statusTagging.toValue (snakeCase "NonZeroExit") (some (.number code))
  | .sandboxFailure => statusTagging.toValue (snakeCase "SandboxFailure") none
  | .internalError => statusTagging.toValue (snakeCase "InternalError") none
  | .cancelled => statusTagging.toValue (snakeCase "Cancelled") none
  | .expired => statusTagging.toValue (snakeCase "Expired") none

/-- Read a status. -/
def Status.fromValue : Json → Option Status := statusTagging.fromValue statusVariants

/-- The number of the signal is one of 32 bits. -/
def Signal.InRange : Signal → Prop
  | .other n => InI32 n
  | _ => True

/-- The numbers of the status are ones of 32 bits. -/
def Status.InRange : Status → Prop
  | .runtimeError sig => sig.InRange
  | .nonZeroExit code => InI32 code
  | _ => True

/-- The time limits have distinct names. -/
theorem timeLimitKindVariants_distinct : (timeLimitKindVariants.map Variant.jsonName).Nodup := by decide +kernel

/-- The signals have distinct names. -/
theorem signalVariants_distinct : (signalVariants.map Variant.jsonName).Nodup := by decide +kernel

/-- The statuses have distinct names. -/
theorem statusVariants_distinct : (statusVariants.map Variant.jsonName).Nodup := by decide +kernel

/-- A time limit is read back. -/
theorem TimeLimitKind.fromValue_toValue (kind : TimeLimitKind) :
    enumFromValue timeLimitKindVariants kind.toValue = some kind := by
  have read (v : Variant TimeLimitKind) (hv : v ∈ timeLimitKindVariants) :
      enumFromValue timeLimitKindVariants (.string v.jsonName) = v.fromContent none :=
    enumFromValue_variant timeLimitKindVariants_distinct hv
  cases kind with
  | wall => exact read (.unit "Wall" .wall) (by simp [timeLimitKindVariants])
  | cpu => exact read (.unit "Cpu" .cpu) (by simp [timeLimitKindVariants])

/-- A signal is read back. -/
theorem Signal.fromValue_toValue {sig : Signal} (h : sig.InRange) : Signal.fromValue sig.toValue = some sig := by
  have read (v : Variant Signal) (content : Option Json) (hv : v ∈ signalVariants) :
      Signal.fromValue (signalTagging.toValue v.jsonName content) = v.fromContent content :=
    signalTagging.fromValue_variant (by decide) signalVariants_distinct hv content
  cases sig with
  | sigsegv => exact read (.unit "Sigsegv" .sigsegv) none (by simp [signalVariants])
  | sigfpe => exact read (.unit "Sigfpe" .sigfpe) none (by simp [signalVariants])
  | sigabrt => exact read (.unit "Sigabrt" .sigabrt) none (by simp [signalVariants])
  | sigxfsz => exact read (.unit "Sigxfsz" .sigxfsz) none (by simp [signalVariants])
  | sigpipe => exact read (.unit "Sigpipe" .sigpipe) none (by simp [signalVariants])
  | sigkill => exact read (.unit "Sigkill" .sigkill) none (by simp [signalVariants])
  | sigterm => exact read (.unit "Sigterm" .sigterm) none (by simp [signalVariants])
  | sigill => exact read (.unit "Sigill" .sigill) none (by simp [signalVariants])
  | sigbus => exact read (.unit "Sigbus" .sigbus) none (by simp [signalVariants])
  | other n =>
    have hread := read (.newtype "Other" fun raw => raw.toI32.map .other) (some (.number n)) (by simp [signalVariants])
    rw [Variant.fromContent, toI32_number h] at hread
    exact hread

/-- A status is read back. -/
theorem Status.fromValue_toValue {s : Status} (h : s.InRange) : Status.fromValue s.toValue = some s := by
  have read (v : Variant Status) (content : Option Json) (hv : v ∈ statusVariants) :
      Status.fromValue (statusTagging.toValue v.jsonName content) = v.fromContent content :=
    statusTagging.fromValue_variant (by decide) statusVariants_distinct hv content
  cases s with
  | queued => exact read (.unit "Queued" .queued) none (by simp [statusVariants])
  | processing => exact read (.unit "Processing" .processing) none (by simp [statusVariants])
  | accepted => exact read (.unit "Accepted" .accepted) none (by simp [statusVariants])
  | timeLimitExceeded kind =>
    have hread := read (.newtype "TimeLimitExceeded" fun detail =>
      (enumFromValue timeLimitKindVariants detail).map .timeLimitExceeded) (some kind.toValue) (by simp [statusVariants])
    rw [Variant.fromContent, kind.fromValue_toValue] at hread
    exact hread
  | compileError => exact read (.unit "CompileError" .compileError) none (by simp [statusVariants])
  | memoryLimitExceeded =>
    exact read (.unit "MemoryLimitExceeded" .memoryLimitExceeded) none (by simp [statusVariants])
  | outputLimitExceeded =>
    exact read (.unit "OutputLimitExceeded" .outputLimitExceeded) none (by simp [statusVariants])
  | runtimeError sig =>
    have hread := read (.newtype "RuntimeError" fun detail => (Signal.fromValue detail).map .runtimeError)
      (some sig.toValue) (by simp [statusVariants])
    rw [Variant.fromContent, Signal.fromValue_toValue h] at hread
    exact hread
  | nonZeroExit code =>
    have hread := read (.newtype "NonZeroExit" fun detail => detail.toI32.map .nonZeroExit) (some (.number code))
      (by simp [statusVariants])
    rw [Variant.fromContent, toI32_number h] at hread
    exact hread
  | sandboxFailure => exact read (.unit "SandboxFailure" .sandboxFailure) none (by simp [statusVariants])
  | internalError => exact read (.unit "InternalError" .internalError) none (by simp [statusVariants])
  | cancelled => exact read (.unit "Cancelled" .cancelled) none (by simp [statusVariants])
  | expired => exact read (.unit "Expired" .expired) none (by simp [statusVariants])

end ZeroCode.Core
