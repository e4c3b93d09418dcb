import ZeroCode.Api.Create
import ZeroCode.Core.Payload

/-!
# Payloads in both modes

A client sends a payload as it is, or in base64 with as much padding as it likes, and gets
the outputs back in one of two ways as well. In each of them the bytes arrive as they were.
-/

namespace ZeroCode.Api

open ZeroCode.Core ZeroCode.Foundation

/-- How the handlers decode a payload that was sent in base64. An error is its text. -/
def payloadDecoder (engine : NoPadEngine) (raw : Bytes) : Except String Bytes :=
  match (Payload.asUtf8 ⟨raw⟩).bind (Payload.fromBase64 engine) with
  | .ok payload => .ok payload.bytes
  | .error e => .error e.text

/-- The handlers with this engine. -/
def AppState.withEngine (api : AppState) (engine : NoPadEngine) : AppState :=
  { api with fromBase64 := payloadDecoder engine }

/-- The bytes of a text are UTF-8. -/
theorem isUtf8_utf8Bytes (s : String) : isUtf8 (utf8Bytes s) = true := by
  have hvalid : (⟨s.toUTF8.data.toList.toArray⟩ : ByteArray).IsValidUTF8 := by simpa using s.isValidUTF8
  exact ByteArray.validateUTF8_eq_true_iff.mpr hvalid

/-- A payload that was sent in base64 is decoded, however much padding follows it. -/
theorem decodePayload_toBase64 {engine : NoPadEngine} (hengine : engine.Correct) (api : AppState) (field : String)
    (p : Payload) (n : ℕ) :
    (api.withEngine engine).decodePayload true field
      (utf8Bytes (p.toBase64 engine ++ String.ofList (List.replicate n '='))) = .ok p.bytes := by
  have hdecoder : payloadDecoder engine (utf8Bytes (p.toBase64 engine ++ String.ofList (List.replicate n '='))) =
      .ok p.bytes := by
    rw [payloadDecoder, Payload.asUtf8, utf8Text_utf8Bytes]
    simp only [Except.bind]
    rw [Payload.fromBase64_toBase64 hengine]
  simp [AppState.decodePayload, AppState.withEngine, isUtf8_utf8Bytes, hdecoder]

/-- With a JSON writer and a base64 engine that read what they wrote, every payload crosses the API as it is: as a
JSON document, where it is a string exactly if it is UTF-8; as base64, with any amount of padding behind it; and in
a request, in both modes. -/
theorem payload_unaltered {T : Type} {serde : SerdeJson T} {engine : NoPadEngine} (hserde : serde.Correct)
    (hengine : engine.Correct) (bytes : Bytes) :
    Payload.fromJson engine serde (Payload.toJson engine serde ⟨bytes⟩) = .ok ⟨bytes⟩ ∧
      (∀ s, bytes = utf8Bytes s → Payload.serialize engine ⟨bytes⟩ = .string s) ∧
        ((∀ s, bytes ≠ utf8Bytes s) →
          Payload.serialize engine ⟨bytes⟩ = .object [("_b64", .string (Payload.toBase64 engine ⟨bytes⟩))]) ∧
          Payload.fromBase64 engine (Payload.toBase64 engine ⟨bytes⟩) = .ok ⟨bytes⟩ ∧
            (∀ n, Payload.fromBase64 engine (Payload.toBase64 engine ⟨bytes⟩ ++
              String.ofList (Base64.padding bytes) ++ String.ofList (List.replicate n '=')) = .ok ⟨bytes⟩) ∧
              ∀ (api : AppState) (field : String) (n : ℕ),
                (api.withEngine engine).decodePayload false field bytes = .ok bytes ∧
                  (api.withEngine engine).decodePayload true field
                    (utf8Bytes (Payload.toBase64 engine ⟨bytes⟩ ++ String.ofList (List.replicate n '='))) =
                    .ok bytes := by
  have hpadded (n : ℕ) := Payload.fromBase64_toBase64 hengine ⟨bytes⟩ n
  refine ⟨Payload.fromJson_toJson hserde hengine ⟨bytes⟩, fun s hs => ?_, fun hnone => ?_, ?_, fun n => ?_,
    fun api field n => ⟨rfl, decodePayload_toBase64 hengine api field ⟨bytes⟩ n⟩⟩
  · rw [Payload.serialize, utf8Text_eq_some_iff.mpr hs]
  · have htext : utf8Text? bytes = none := Option.eq_none_iff_forall_not_mem.mpr fun s hs =>
      hnone s (utf8Text_eq_some_iff.mp hs)
    simp only [Payload.serialize, htext, Payload.toBase64]
  · have hplain := hpadded 0
    rwa [List.replicate_zero, String.ofList_nil, String.append_empty] at hplain
  · rw [String.append_assoc, ← String.ofList_append, Base64.padding, List.replicate_append_replicate]
    exact hpadded _

/-- The engine as the standard has it. -/
def standardNoPad : NoPadEngine where
  encode bytes := String.ofList (Base64.encode bytes)
  decode s := (Base64.decode true s.toList).elim (.error "invalid base64") .ok

/-- It reads what it wrote, and writes no padding. -/
theorem standardNoPad_correct : standardNoPad.Correct where
  decodes bytes := by simp only [standardNoPad, String.toList_ofList, Base64.decode_encode, Option.elim_some]
  unpadded bytes := by
    simp only [standardNoPad, String.toList_ofList]
    exact Base64.padding_not_mem_encode bytes

/-- JSON values instead of a text. -/
def jsonValues : SerdeJson Json := ⟨id, .ok⟩

/-- Three bytes that are no text, in all forms. -/
theorem payload_unaltered_binary :
    Payload.toBase64 standardNoPad ⟨[0xff, 0xfe, 0xfd]⟩ = "//79" ∧
      Payload.fromJson standardNoPad jsonValues (Payload.toJson standardNoPad jsonValues ⟨[0xff, 0xfe, 0xfd]⟩) =
          .ok ⟨[0xff, 0xfe, 0xfd]⟩ ∧
        Payload.fromBase64 standardNoPad (Payload.toBase64 standardNoPad ⟨[0xff, 0xfe, 0xfd]⟩) =
          .ok ⟨[0xff, 0xfe, 0xfd]⟩ := by
  have hserde : jsonValues.Correct := ⟨fun _ => rfl, fun _ _ => rfl⟩
  obtain ⟨hjson, _, _, hbase64, _⟩ := payload_unaltered hserde standardNoPad_correct [0xff, 0xfe, 0xfd]
  exact ⟨by decide +kernel, hjson, hbase64⟩

end ZeroCode.Api
