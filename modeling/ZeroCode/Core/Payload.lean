import Mathlib.Data.List.DropRight
import ZeroCode.Core.Language
import ZeroCode.Foundation.Base64
import ZeroCode.Foundation.Json
import ZeroCode.Foundation.Text

/-!
# Payloads on the wire

Sources, inputs and outputs are bytes. In JSON they are a string if they are UTF-8, and
otherwise an object with one entry, the bytes in base64. A reader takes any string for its
bytes, and of an object the one entry. A client may also ask for base64 throughout; padding
is stripped before such a text is decoded, and never written. The base64 engine and the JSON
writer are those of crates, and parameters here.
-/

namespace ZeroCode.Core

open ZeroCode.Foundation

/-- The engine of the standard alphabet without padding. An error is its text. -/
structure NoPadEngine where
  encode : Bytes → String
  decode : String → Except String Bytes

/-- The engine reads what it wrote, and writes no padding. -/
structure NoPadEngine.Correct (engine : NoPadEngine) : Prop where
  decodes : ∀ bytes, engine.decode (engine.encode bytes) = .ok bytes
  unpadded : ∀ bytes, '=' ∉ (engine.encode bytes).toList

/-- A writer of JSON and its reader, for one kind of output. An error is its text. -/
structure SerdeJson (T : Type) where
  write : Json → T
  read : T → Except String Json

/-- Strings and objects of one string are read back. -/
structure SerdeJson.Correct {T : Type} (serde : SerdeJson T) : Prop where
  string : ∀ s, serde.read (serde.write (.string s)) = .ok (.string s)
  entry : ∀ key s, serde.read (serde.write (.object [(key, .string s)])) = .ok (.object [(key, .string s)])

/-- The errors of a payload. -/
inductive CoreError
  | payloadTooLarge (actual limit : ℕ)
  | payloadNotUtf8
  | invalidBase64 (msg : String)
  deriving DecidableEq, Repr

/-- The text of an error. -/
def CoreError.text : CoreError → String
  | .payloadTooLarge actual limit =>
    "payload too large: " ++ toString actual ++ " bytes (limit " ++ toString limit ++ ")"
  | .payloadNotUtf8 => "payload is not valid UTF-8 (set base64_encoded=true to submit binary)"
  | .invalidBase64 msg => "invalid base64: " ++ msg

/-- Why a JSON value is no payload. -/
inductive DeError
  | malformed (msg : String)
  | invalidType (expected : String)
  | missingField (field : String)
  | unknownField (field : String) (expected : List String)
  | custom (msg : String)
  | trailing
  deriving DecidableEq, Repr

/-- A user-supplied byte payload. -/
structure Payload where
  bytes : Bytes
  deriving DecidableEq, Repr

/-- A text without the padding at its end. -/
def trimPadding (s : String) : String := String.ofList (s.toList.rdropWhile (· == '='))

section Wire

variable (engine : NoPadEngine)

/-- Decode a payload that was sent in base64. -/
def Payload.fromBase64 (s : String) : Except CoreError Payload :=
  match engine.decode (trimPadding s) with
  | .ok bytes => .ok ⟨bytes⟩
  | .error e => .error (.invalidBase64 e)

/-- Encode a payload for a client that asked for base64. -/
def Payload.toBase64 (p : Payload) : String := engine.encode p.bytes

/-- The payload as a text. -/
def Payload.asUtf8 (p : Payload) : Except CoreError String :=
  match utf8Text? p.bytes with
  | some s => .ok s
  | none => .error .payloadNotUtf8

/-- The payload as a JSON value. -/
def Payload.serialize (p : Payload) : Json :=
  match utf8Text? p.bytes with
  | some s => .string s
  | none => .object [("_b64", .string (engine.encode p.bytes))]

/-- A payload from a JSON value. -/
def Payload.deserialize : Json → Except DeError Payload
  | .string s => .ok ⟨utf8Bytes s⟩
  | .object [] => .error (.missingField "_b64")
  | .object ((key, value) :: rest) =>
    if key ≠ "_b64" then .error (.unknownField key ["_b64"])
    else
      match value with
      | .string s =>
        match engine.decode (trimPadding s) with
        -- the reader insists that the object ends here
        | .ok bytes => if rest.isEmpty then .ok ⟨bytes⟩ else .error .trailing
        | .error e => .error (.custom e)
      | _ => .error (.invalidType "a string")
  | _ => .error (.invalidType "a UTF-8 string or \x7b\"_b64\": \"...\"\x7d")

variable {T : Type} (serde : SerdeJson T)

/-- The payload as a JSON document. -/
def Payload.toJson (p : Payload) : T := serde.write (p.serialize engine)

/-- A payload from a JSON document. -/
def Payload.fromJson (document : T) : Except DeError Payload :=
  match serde.read document with
  | .ok value => Payload.deserialize engine value
  | .error e => .error (.malformed e)

variable {engine serde}

/-- A text without padding is left as it is, however much padding follows it. -/
theorem trimPadding_append {s : String} (h : '=' ∉ s.toList) (n : ℕ) :
    trimPadding (s ++ String.ofList (List.replicate n '=')) = s := by
  have htrim : (s.toList ++ List.replicate n '=').rdropWhile (· == '=') = s.toList := by
    induction n with
    | zero =>
      rw [List.replicate_zero, List.append_nil]
      refine List.rdropWhile_eq_self_iff.mpr fun hne hlast => h ?_
      rw [← beq_iff_eq.mp hlast]
      exact List.getLast_mem hne
    | succ n ih => rw [List.replicate_succ', ← List.append_assoc, List.rdropWhile_concat_pos _ _ _ (by simp), ih]
  rw [trimPadding, String.toList_append, String.toList_ofList, htrim, String.ofList_toList]

/-- What was encoded is decoded, however much padding follows it. -/
theorem Payload.fromBase64_toBase64 (hengine : engine.Correct) (p : Payload) (n : ℕ) :
    Payload.fromBase64 engine (p.toBase64 engine ++ String.ofList (List.replicate n '=')) = .ok p := by
  rw [Payload.fromBase64, Payload.toBase64, trimPadding_append (hengine.unpadded p.bytes), hengine.decodes]

/-- What was serialized is deserialized. -/
theorem Payload.deserialize_serialize (hengine : engine.Correct) (p : Payload) :
    Payload.deserialize engine (p.serialize engine) = .ok p := by
  cases htext : utf8Text? p.bytes with
  | some s =>
    rw [Payload.serialize, htext, Payload.deserialize, ← utf8Text_eq_some_iff.mp htext]
  | none =>
    have htrim := trimPadding_append (hengine.unpadded p.bytes) 0
    simp only [List.replicate_zero, String.ofList_nil, String.append_empty] at htrim
    simp [Payload.serialize, htext, Payload.deserialize, htrim, hengine.decodes]

/-- What was written as a document is read back. -/
theorem Payload.fromJson_toJson (hserde : serde.Correct) (hengine : engine.Correct) (p : Payload) :
    Payload.fromJson engine serde (p.toJson engine serde) = .ok p := by
  have hread : serde.read (serde.write (p.serialize engine)) = .ok (p.serialize engine) := by
    unfold Payload.serialize
    split
    · exact hserde.string _
    · exact hserde.entry _ _
  rw [Payload.fromJson, Payload.toJson, hread]
  exact p.deserialize_serialize hengine

end Wire

end ZeroCode.Core
