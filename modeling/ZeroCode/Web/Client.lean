import ZeroCode.Api.Views
import ZeroCode.Core.Payload
import ZeroCode.Core.StatusJson

/-!
# The browser client

The client asks every endpoint for base64, takes an output for base64 if it can be read so,
and otherwise as it is. The endpoint of a batch sends payloads all the same. An output that
happens to be base64 of a text is shown as that text, so the client shows what was sent
exactly where no such reading exists.
-/

namespace ZeroCode.Web

open ZeroCode.Api ZeroCode.Core ZeroCode.Foundation

/-- A status on the side of the client: a plain text, or a kind with a detail. -/
inductive ApiStatus
  | text (value : String)
  | object (kind : String) (detail : Option Json)

/-- A submission on the side of the client, with the fields that the panel reads. -/
structure ClientSubmission where
  token : String
  status : ApiStatus
  verdict : Bool
  stdout : Option String
  stderr : Option String
  compileOutput : Option String
  exitCode : Option ℤ
  wallTime : Option ℚ
  memory : Option ℕ

/-- The kind of a status in the vocabulary of the client, for whatever the platform takes for lower case. -/
def statusKind (toLowerCase : String → String) : ApiStatus → String
  | .text value => if value = "" then "idle" else toLowerCase value
  | .object kind _ =>
    match kind with
    | "accepted" => "accepted"
    | "queued" => "queued"
    | "processing" => "processing"
    | "time_limit_exceeded" => "tle"
    | "memory_limit_exceeded" => "mle"
    | "output_limit_exceeded" => "ole"
    | "compile_error" => "ce"
    | "runtime_error" => "re"
    | "non_zero_exit" => "nze"
    | "sandbox_failure" | "internal_error" => "se"
    | "cancelled" => "cancelled"
    | "expired" => "expired"
    | "" => "idle"
    | other => other

/-- Read base64, if the text is any. -/
def atob (data : String) : Option Bytes := Base64.forgiving data.toList

/-- The text of an output, as the client reads it. -/
def decode (b64 : String) : String := (((atob b64).map escape).bind decodeURIComponent).getD b64

/-- The text can be read as base64 of some text as well. -/
def Ambiguous (text : String) : Prop := text ≠ "" ∧ ∃ bytes s, atob text = some bytes ∧ bytes = utf8Bytes s

/-- An output field of a response is a string or missing on the side of the client. What else it may be is not of
the type of the client, and left open. -/
def ReceivedOutput (sent : Option Json) (received : Option String) : Prop :=
  (sent = none → received = none) ∧ ∀ s, sent = some (.string s) → received = some s

/-- What the client has of a submission in a response. -/
structure Received (sent : SubmissionView Json) (item : ClientSubmission) : Prop where
  token : item.token = String.ofList sent.token.text
  status : ∃ kind detail, item.status = .object kind detail ∧ sent.status.toValue =
    .object (("kind", .string kind) :: (detail.map fun d => ("detail", d)).toList)
  verdict : item.verdict = sent.verdict
  stdout : ReceivedOutput sent.stdout item.stdout
  stderr : ReceivedOutput sent.stderr item.stderr
  compileOutput : ReceivedOutput sent.compileOutput item.compileOutput
  exitCode : item.exitCode = sent.exitCode
  wallTime : item.wallTime = sent.wallTime
  memory : item.memory = sent.memory

/-- What is read as base64 of a text is shown as that text, and everything else as it is. -/
theorem decode_eq (text : String) : decode text = ((atob text).bind utf8Text?).getD text := by
  cases h : atob text with
  | none => simp only [decode, h, Option.map_none, Option.bind_none]
  | some bytes => simp only [decode, h, Option.map_some, Option.bind_some, decodeURIComponent_escape]

/-- No text but the empty one is base64 of itself: the bytes are fewer than the letters. -/
theorem eq_empty_of_atob {text : String} (h : atob text = some (utf8Bytes text)) : text = "" := by
  have hfewer : 4 * (utf8Bytes text).length ≤ 3 * text.toList.length := Base64.length_forgiving h
  have hmore : text.toList.length ≤ (utf8Bytes text).length := length_toList_le text
  have hnil : text.toList = [] := List.eq_nil_of_length_eq_zero (by omega)
  exact String.toList_eq_nil_iff.mp hnil

/-- The client shows a text as it is exactly if it cannot be read as base64 of a text. -/
theorem decode_eq_self_iff (text : String) : decode text = text ↔ ¬ Ambiguous text := by
  rw [decode_eq]
  constructor
  · rintro hshown ⟨hne, bytes, s, hbytes, hs⟩
    rw [hbytes, Option.bind_some, utf8Text_eq_some_iff.mpr hs, Option.getD_some] at hshown
    subst hshown
    exact hne (eq_empty_of_atob (hs ▸ hbytes))
  · intro hplain
    by_cases hempty : text = ""
    · subst hempty
      rfl
    · cases hbytes : atob text with
      | none => rfl
      | some bytes =>
        rw [Option.bind_some]
        cases htext : utf8Text? bytes with
        | none => rfl
        | some s => exact absurd ⟨hempty, bytes, s, hbytes, utf8Text_eq_some_iff.mp htext⟩ hplain

end ZeroCode.Web
