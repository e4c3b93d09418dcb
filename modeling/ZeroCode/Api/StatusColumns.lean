import ZeroCode.Api.RowInvariant
import ZeroCode.Core.StatusJson

/-!
# The two columns of a status

A worker writes a status as a text and a JSON detail by a function of its own, and the API
puts the two back into the object that the derived decoder reads. The pair is the derived
encoding taken apart, so every status with numbers of 32 bits survives. The enumerated
columns of the rows stand for these texts and values, and are read the same way.
-/

namespace ZeroCode.Api

open ZeroCode.Core ZeroCode.Foundation ZeroCode.Worker

/-- Encode a status as a text and a JSON detail. -/
def encodeStatusColumns : Status → String × Option Json
  | .queued => ("queued", none)
  | .processing => ("processing", none)
  | .accepted => ("accepted", none)
  | .timeLimitExceeded .wall => ("time_limit_exceeded", some (.string "wall"))
  | .timeLimitExceeded .cpu => ("time_limit_exceeded", some (.string "cpu"))
  | .compileError => ("compile_error", none)
  | .memoryLimitExceeded => ("memory_limit_exceeded", none)
  | .outputLimitExceeded => ("output_limit_exceeded", none)
  | .runtimeError sig => ("runtime_error", some sig.toValue)
  | .nonZeroExit code => ("non_zero_exit", some (.number code))
  | .sandboxFailure => ("sandbox_failure", none)
  | .internalError => ("internal_error", none)
  | .cancelled => ("cancelled", none)
  | .expired => ("expired", none)

/-- Convert the text and the JSON detail back into a status. -/
def parseStatusColumns (text : String) (detail : Option Json) : Except ApiError Status :=
  let combined := match detail with
    | some d => .object [("kind", .string text), ("detail", d)]
    | none => .object [("kind", .string text)]
  match Status.fromValue combined with
  | some status => .ok status
  | none => .error (.internal ("unparseable status '" ++ text ++ "'"))

/-- The JSON value of a detail. -/
def statusDetailValue : StatusDetail → Json
  | .text value => .string value
  | .number value => .number value
  | .signal name raw => signalTagging.toValue name (raw.map .number)

/-- The numbers of a detail are ones of 32 bits. -/
def DetailInRange : StatusDetail → Prop
  | .text _ => True
  | .number value => InI32 value
  | .signal _ raw => ∀ n ∈ raw, InI32 n

/-- What is read back is the derived decoding of the name and the detail. -/
theorem parseStatusColumns_eq (text : String) (detail : Option Json) :
    parseStatusColumns text detail =
      match Status.fromValue (statusTagging.toValue text detail) with
      | some status => .ok status
      | none => .error (.internal ("unparseable status '" ++ text ++ "'")) := by
  cases detail <;> rfl

/-- The pair of columns is the derived encoding taken apart. -/
theorem toValue_encodeStatusColumns (s : Status) :
    statusTagging.toValue (encodeStatusColumns s).1 (encodeStatusColumns s).2 = s.toValue := by
  cases s with
  | timeLimitExceeded kind => cases kind <;> rfl
  | _ => rfl

/-- The enumerated columns stand for the text and the value. -/
theorem encodeStatusColumns_eq (s : Status) :
    encodeStatusColumns s = ((encodeStatus s).1.text, (encodeStatus s).2.map statusDetailValue) := by
  cases s with
  | timeLimitExceeded kind => cases kind <;> rfl
  | runtimeError sig => cases sig <;> rfl
  | _ => rfl

/-- A plain variant is read from the name alone. -/
theorem unit_fromContent_map {A : Type*} (name : String) (value : A) (detail : Option StatusDetail) :
    (Variant.unit name value).fromContent (detail.map statusDetailValue) = if detail = none then some value else none := by
  match detail with
  | none => rfl
  | some (.text _) => rfl
  | some (.number _) => rfl
  | some (.signal _ none) => rfl
  | some (.signal _ (some _)) => rfl

/-- Only the names of the variants are names of signals. -/
theorem parseSignal_eq_none {name : String} (h : ∀ v ∈ signalVariants, v.jsonName ≠ name) (raw : Option ℤ) :
    parseSignal name raw = none := by
  have hname : name ∉ signalVariants.map Variant.jsonName := by simpa using h
  rw [show signalVariants.map Variant.jsonName = ["sigsegv", "sigfpe", "sigabrt", "sigxfsz", "sigpipe", "sigkill",
    "sigterm", "sigill", "sigbus", "other"] by decide +kernel] at hname
  simp only [List.mem_cons, List.not_mem_nil, or_false, not_or] at hname
  unfold parseSignal
  split <;> simp at hname ⊢

/-- The name and the number of a signal are read as the derived decoder reads them. -/
theorem fromValue_signalDetail {name : String} {raw : Option ℤ} (h : ∀ n ∈ raw, InI32 n) :
    Signal.fromValue (signalTagging.toValue name (raw.map .number)) = parseSignal name raw := by
  rw [Signal.fromValue, signalTagging.fromValue_toValue (by decide)]
  by_cases hname : ∃ v ∈ signalVariants, v.jsonName = name
  · obtain ⟨v, hv, rfl⟩ := hname
    rw [findVariant_jsonName signalVariants_distinct hv, Option.bind_some]
    simp only [signalVariants, List.mem_cons, List.not_mem_nil, or_false] at hv
    rcases hv with rfl | rfl | rfl | rfl | rfl | rfl | rfl | rfl | rfl | rfl
    case inr.inr.inr.inr.inr.inr.inr.inr.inr =>
      cases raw with
      | none => rfl
      | some n =>
        rw [Option.map_some, Variant.fromContent, toI32_number (h n rfl)]
        rfl
    all_goals
      cases raw <;> rfl
  · have hother : ∀ v ∈ signalVariants, v.jsonName ≠ name := fun v hv hsame => hname ⟨v, hv, hsame⟩
    have hnone : findVariant signalVariants name = none := by simpa [findVariant] using hother
    rw [hnone, parseSignal_eq_none hother, Option.bind_none]

/-- The detail of a time limit is read as the derived decoder reads it. -/
theorem fromValue_timeLimitDetail (detail : StatusDetail) :
    (enumFromValue timeLimitKindVariants (statusDetailValue detail)).map Status.timeLimitExceeded =
      statusOfColumns .timeLimitExceeded (some detail) := by
  cases detail with
  | number value => rfl
  | signal name raw => cases raw <;> rfl
  | text value =>
    by_cases hwall : value = "wall"
    · subst hwall
      rfl
    by_cases hcpu : value = "cpu"
    · subst hcpu
      rfl
    have hname : value ∉ timeLimitKindVariants.map Variant.jsonName := by
      rw [show timeLimitKindVariants.map Variant.jsonName = ["wall", "cpu"] by decide +kernel]
      simp [hwall, hcpu]
    have hnone : findVariant timeLimitKindVariants value = none := by simpa [findVariant] using hname
    simp [statusDetailValue, enumFromValue, hnone, statusOfColumns, hwall, hcpu]

/-- The detail of a runtime error is read as the derived decoder reads it. -/
theorem fromValue_runtimeErrorDetail {detail : StatusDetail} (h : DetailInRange detail) :
    (Signal.fromValue (statusDetailValue detail)).map Status.runtimeError =
      statusOfColumns .runtimeError (some detail) := by
  cases detail with
  | text value => rfl
  | number value => rfl
  | signal name raw =>
    rw [statusDetailValue, fromValue_signalDetail h]
    rfl

/-- The detail of an exit code is read as the derived decoder reads it. -/
theorem fromValue_exitDetail {detail : StatusDetail} (h : DetailInRange detail) :
    (statusDetailValue detail).toI32.map Status.nonZeroExit = statusOfColumns .nonZeroExit (some detail) := by
  cases detail with
  | text value => rfl
  | number value =>
    rw [statusDetailValue, toI32_number h]
    rfl
  | signal name raw => cases raw <;> rfl

/-- The enumerated columns of a row are read as the text and the value they stand for. -/
theorem parseStatusColumns_text {kind : StatusKind} {detail : Option StatusDetail}
    (h : ∀ d ∈ detail, DetailInRange d) :
    parseStatusColumns kind.text (detail.map statusDetailValue) = parseStatus kind detail := by
  suffices hread : Status.fromValue (statusTagging.toValue kind.text (detail.map statusDetailValue)) =
      statusOfColumns kind detail by
    rw [parseStatusColumns_eq, hread]
    unfold parseStatus
    cases statusOfColumns kind detail <;> rfl
  have read (v : Variant Status) (hv : v ∈ statusVariants) :
      Status.fromValue (statusTagging.toValue v.jsonName (detail.map statusDetailValue)) =
        v.fromContent (detail.map statusDetailValue) :=
    statusTagging.fromValue_variant (by decide) statusVariants_distinct hv _
  have plain (name : String) (value : Status) (hv : Variant.unit name value ∈ statusVariants)
      (hcolumns : statusOfColumns kind detail = if detail = none then some value else none) :
      Status.fromValue (statusTagging.toValue (snakeCase name) (detail.map statusDetailValue)) =
        statusOfColumns kind detail := by
    rw [hcolumns, ← unit_fromContent_map name value detail]
    exact read (.unit name value) hv
  cases kind with
  | queued => exact plain "Queued" .queued (by simp [statusVariants]) (by cases detail <;> rfl)
  | processing => exact plain "Processing" .processing (by simp [statusVariants]) (by cases detail <;> rfl)
  | accepted => exact plain "Accepted" .accepted (by simp [statusVariants]) (by cases detail <;> rfl)
  | compileError => exact plain "CompileError" .compileError (by simp [statusVariants]) (by cases detail <;> rfl)
  | memoryLimitExceeded =>
    exact plain "MemoryLimitExceeded" .memoryLimitExceeded (by simp [statusVariants]) (by cases detail <;> rfl)
  | outputLimitExceeded =>
    exact plain "OutputLimitExceeded" .outputLimitExceeded (by simp [statusVariants]) (by cases detail <;> rfl)
  | sandboxFailure =>
    exact plain "SandboxFailure" .sandboxFailure (by simp [statusVariants]) (by cases detail <;> rfl)
  | internalError => exact plain "InternalError" .internalError (by simp [statusVariants]) (by cases detail <;> rfl)
  | cancelled => exact plain "Cancelled" .cancelled (by simp [statusVariants]) (by cases detail <;> rfl)
  | expired => exact plain "Expired" .expired (by simp [statusVariants]) (by cases detail <;> rfl)
  | timeLimitExceeded =>
    refine (read (.newtype "TimeLimitExceeded" fun value =>
      (enumFromValue timeLimitKindVariants value).map .timeLimitExceeded) (by simp [statusVariants])).trans ?_
    cases detail with
    | none => rfl
    | some d => exact fromValue_timeLimitDetail d
  | runtimeError =>
    refine (read (.newtype "RuntimeError" fun value => (Signal.fromValue value).map .runtimeError)
      (by simp [statusVariants])).trans ?_
    cases detail with
    | none => rfl
    | some d => exact fromValue_runtimeErrorDetail (h d rfl)
  | nonZeroExit =>
    refine (read (.newtype "NonZeroExit" fun value => value.toI32.map .nonZeroExit)
      (by simp [statusVariants])).trans ?_
    cases detail with
    | none => rfl
    | some d => exact fromValue_exitDetail (h d rfl)

/-- The number of a named signal is the one it was named after. -/
theorem encodeSignal_fromRaw (n : ℤ) : encodeSignal (some (Signal.fromRaw n)) = some n := by
  unfold Signal.fromRaw
  split <;> rfl

/-- Every status a worker can write is read back by the API, and every raw signal number survives being named
and written, in the status as well as in the column of its own. -/
theorem status_and_signal_survive :
    (∀ s : Status, s.InRange → parseStatusColumns (encodeStatusColumns s).1 (encodeStatusColumns s).2 = .ok s) ∧
      ∀ n : ℤ, encodeSignal (some (Signal.fromRaw n)) = some n ∧
        (encodeSignal (some (Signal.fromRaw n))).map Signal.fromRaw = some (Signal.fromRaw n) := by
  refine ⟨fun s hrange => ?_, fun n => ?_⟩
  · rw [parseStatusColumns_eq, toValue_encodeStatusColumns, Status.fromValue_toValue hrange]
  · rw [encodeSignal_fromRaw]
    exact ⟨rfl, rfl⟩

/-- A signal without a name of its own keeps its number. -/
theorem status_and_signal_survive_other :
    InI32 42 ∧ parseStatusColumns "runtime_error" (some (.object [("name", .string "other"), ("raw", .number 42)])) =
      .ok (.runtimeError (.other 42)) :=
  ⟨by decide, status_and_signal_survive.1 (.runtimeError (.other 42)) (by decide : InI32 42)⟩

end ZeroCode.Api
