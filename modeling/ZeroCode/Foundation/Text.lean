import Mathlib.Data.List.Basic
import Mathlib.Tactic.IntervalCases

/-!
# Bytes as text

The bytes of a text in UTF-8, and the text of bytes that are UTF-8. A text that may hold
ASCII only carries bytes percent by percent: a few letters stand for themselves, every other
byte is a percent sign with two hexadecimal digits. Reading such a text as UTF-8 reads the
bytes as UTF-8, and reading the UTF-8 of a text without regard to that gives its bytes.
-/

namespace ZeroCode.Foundation

/-- The bytes of a text. -/
def utf8Bytes (s : String) : List UInt8 := s.toUTF8.data.toList

/-- The text of bytes, if they are UTF-8. -/
def utf8Text? (bytes : List UInt8) : Option String := String.fromUTF8? ⟨bytes.toArray⟩

/-- The letter of a hexadecimal digit. -/
def hexDigit (n : ℕ) : Char := if n < 10 then Char.ofNat (48 + n) else Char.ofNat (65 + (n - 10))

/-- The number of a hexadecimal digit. -/
def hexValue? (c : Char) : Option ℕ :=
  if 48 ≤ c.toNat ∧ c.toNat ≤ 57 then some (c.toNat - 48)
  else if 65 ≤ c.toNat ∧ c.toNat ≤ 70 then some (c.toNat - 65 + 10)
  else if 97 ≤ c.toNat ∧ c.toNat ≤ 102 then some (c.toNat - 97 + 10)
  else none

/-- The characters that stand for themselves: letters, digits and some signs. -/
def isPlain (n : ℕ) : Bool :=
  (65 ≤ n && n ≤ 90) || (97 ≤ n && n ≤ 122) || (48 ≤ n && n ≤ 57) || [42, 43, 45, 46, 47, 64, 95].contains n

/-- A byte as one character or three. -/
def escapeByte (b : UInt8) : List Char :=
  if isPlain b.toNat then [Char.ofNat b.toNat] else ['%', hexDigit (b.toNat / 16), hexDigit (b.toNat % 16)]

/-- Write every byte, as a character below 256, in ASCII. -/
def escape (bytes : List UInt8) : String := String.ofList (bytes.flatMap escapeByte)

/-- The characters that an address may hold as they are: letters, digits and some signs. -/
def isUnreserved (n : ℕ) : Bool :=
  (65 ≤ n && n ≤ 90) || (97 ≤ n && n ≤ 122) || (48 ≤ n && n ≤ 57) || [33, 39, 40, 41, 42, 45, 46, 95, 126].contains n

/-- A byte of UTF-8 as a part of an address. -/
def encodeByte (b : UInt8) : List Char :=
  if isUnreserved b.toNat then [Char.ofNat b.toNat] else ['%', hexDigit (b.toNat / 16), hexDigit (b.toNat % 16)]

/-- Write a text as a part of an address. -/
def encodeURIComponent (s : String) : String := String.ofList ((utf8Bytes s).flatMap encodeByte)

/-- The code units of a character in UTF-16. -/
def utf16Units (c : Char) : List ℕ :=
  if c.toNat < 0x10000 then [c.toNat]
  else [0xd800 + (c.toNat - 0x10000) / 0x400, 0xdc00 + (c.toNat - 0x10000) % 0x400]

/-- The number that hexadecimal digits write. -/
def hexNumber? (text : List Char) : Option ℕ := (text.mapM hexValue?).map fun values => values.foldl (· * 16 + ·) 0

/-- The code units that a text stands for, with two digits after a percent sign or four after one and a letter.
What has other digits stands for itself. -/
def unescape : List Char → List ℕ
  | [] => []
  | '%' :: 'u' :: a :: b :: c :: d :: rest =>
    match hexNumber? [a, b, c, d] with
    | some n => n :: unescape rest
    | none => 37 :: unescape ('u' :: a :: b :: c :: d :: rest)
  | '%' :: a :: b :: rest =>
    match hexNumber? [a, b] with
    | some n => n :: unescape rest
    | none => 37 :: unescape (a :: b :: rest)
  | c :: rest => utf16Units c ++ unescape rest

/-- The bytes that a text with percent signs stands for. -/
def percentDecode : List Char → Option (List UInt8)
  | [] => some []
  | '%' :: high :: low :: rest =>
    match hexValue? high, hexValue? low with
    | some h, some l => (percentDecode rest).map (UInt8.ofNat (h * 16 + l) :: ·)
    | _, _ => none
  | '%' :: _ => none
  | c :: rest => (percentDecode rest).map (String.utf8EncodeChar c ++ ·)

/-- Read a text with percent signs as UTF-8. -/
def decodeURIComponent (s : String) : Option String := (percentDecode s.toList).bind utf8Text?

/-- A text has bytes that are read as the text. -/
@[simp]
theorem utf8Text_utf8Bytes (s : String) : utf8Text? (utf8Bytes s) = some s := by
  have hvalid : (⟨s.toUTF8.data.toList.toArray⟩ : ByteArray).IsValidUTF8 := by simpa using s.isValidUTF8
  rw [utf8Text?, utf8Bytes, String.fromUTF8?, dif_pos hvalid]
  simp [String.fromUTF8]

/-- Bytes that are read as a text are the bytes of it. -/
theorem utf8Text_eq_some_iff {bytes : List UInt8} {s : String} : utf8Text? bytes = some s ↔ bytes = utf8Bytes s := by
  constructor
  · intro h
    rw [utf8Text?, String.fromUTF8?] at h
    split at h
    · cases h
      simp [utf8Bytes, String.fromUTF8]
    · cases h
  · rintro rfl
    exact utf8Text_utf8Bytes s

/-- The bytes of a text are those of its characters. -/
theorem utf8Bytes_eq (s : String) : utf8Bytes s = s.toList.flatMap String.utf8EncodeChar := by
  conv_lhs => rw [← @String.ofList_toList s]
  rw [utf8Bytes, String.toUTF8_eq_toByteArray, String.toByteArray_ofList, List.utf8Encode, List.data_toByteArray]

/-- A text has a byte for each of its characters at least. -/
theorem length_toList_le (s : String) : s.toList.length ≤ (utf8Bytes s).length := by
  rw [utf8Bytes_eq]
  induction s.toList with
  | nil => rfl
  | cons c rest ih =>
    have hpos : 0 < c.utf8Size := c.utf8Size_pos
    rw [List.length_cons, List.flatMap_cons, List.length_append, String.length_utf8EncodeChar]
    omega

/-- A hexadecimal digit is read back. -/
theorem hexValue_hexDigit {n : ℕ} (h : n < 16) : hexValue? (hexDigit n) = some n := by
  interval_cases n <;> rfl

/-- A plain character has one byte, and is no percent sign. -/
theorem utf8EncodeChar_plain {n : ℕ} (h : isPlain n = true) :
    Char.ofNat n ≠ '%' ∧ String.utf8EncodeChar (Char.ofNat n) = [UInt8.ofNat n] := by
  have hsmall : n < 128 := by
    simp only [isPlain, Bool.or_eq_true, Bool.and_eq_true, decide_eq_true_eq, List.contains_iff_mem, List.mem_cons,
      List.not_mem_nil, or_false] at h
    omega
  interval_cases n <;> first | exact ⟨by decide, by decide⟩ | cases h

/-- A character other than a percent sign stands for its bytes. -/
theorem percentDecode_cons_of_ne {c : Char} (h : c ≠ '%') (rest : List Char) :
    percentDecode (c :: rest) = (percentDecode rest).map (String.utf8EncodeChar c ++ ·) := by
  rw [percentDecode]
  · exact fun _ _ _ heq _ => h heq
  · exact fun heq => h heq

/-- A byte is read back. -/
theorem percentDecode_escapeByte (b : UInt8) (rest : List Char) :
    percentDecode (escapeByte b ++ rest) = (percentDecode rest).map (b :: ·) := by
  have hb : b.toNat < 256 := b.toNat_lt
  unfold escapeByte
  split
  · rename_i hplain
    obtain ⟨hne, hbytes⟩ := utf8EncodeChar_plain hplain
    rw [List.singleton_append, percentDecode_cons_of_ne hne, hbytes, UInt8.ofNat_toNat]
    rfl
  · have hsum : b.toNat / 16 * 16 + b.toNat % 16 = b.toNat := by omega
    have hhigh : hexValue? (hexDigit (b.toNat / 16)) = some (b.toNat / 16) := hexValue_hexDigit (by omega)
    have hlow : hexValue? (hexDigit (b.toNat % 16)) = some (b.toNat % 16) := hexValue_hexDigit (by omega)
    simp only [List.cons_append, List.nil_append, percentDecode, hhigh, hlow, hsum, UInt8.ofNat_toNat]

/-- Bytes are read back. -/
theorem percentDecode_escape (bytes : List UInt8) : percentDecode (bytes.flatMap escapeByte) = some bytes := by
  induction bytes with
  | nil => rfl
  | cons b rest ih => rw [List.flatMap_cons, percentDecode_escapeByte, ih, Option.map_some]

/-- An unreserved character is one code unit, and no percent sign. -/
theorem utf16Units_unreserved {n : ℕ} (h : isUnreserved n = true) :
    Char.ofNat n ≠ '%' ∧ utf16Units (Char.ofNat n) = [n] := by
  have hsmall : n < 128 := by
    simp only [isUnreserved, Bool.or_eq_true, Bool.and_eq_true, decide_eq_true_eq, List.contains_iff_mem,
      List.mem_cons, List.not_mem_nil, or_false] at h
    omega
  interval_cases n <;> first | exact ⟨by decide, by decide⟩ | cases h

/-- A hexadecimal digit is not the letter of a longer number. -/
theorem hexDigit_ne {n : ℕ} (h : n < 16) : hexDigit n ≠ 'u' := by
  interval_cases n <;> decide

/-- A byte that was written is a code unit of its own. -/
theorem unescape_encodeByte (b : UInt8) (rest : List Char) :
    unescape (encodeByte b ++ rest) = b.toNat :: unescape rest := by
  have hb : b.toNat < 256 := b.toNat_lt
  unfold encodeByte
  split
  · rename_i hunreserved
    obtain ⟨hne, hunits⟩ := utf16Units_unreserved hunreserved
    rw [List.singleton_append, unescape, hunits, List.singleton_append]
    · exact fun _ _ _ _ _ heq _ => hne heq
    · exact fun _ _ _ heq _ => hne heq
  · have hsum : b.toNat / 16 * 16 + b.toNat % 16 = b.toNat := by omega
    have hhigh : hexValue? (hexDigit (b.toNat / 16)) = some (b.toNat / 16) := hexValue_hexDigit (by omega)
    have hlow : hexValue? (hexDigit (b.toNat % 16)) = some (b.toNat % 16) := hexValue_hexDigit (by omega)
    have hnumber : hexNumber? [hexDigit (b.toNat / 16), hexDigit (b.toNat % 16)] = some b.toNat := by
      simp [hexNumber?, hhigh, hlow, hsum]
    rw [List.cons_append, List.cons_append, List.cons_append, List.nil_append, unescape, hnumber]
    exact fun _ _ _ _ heq _ => hexDigit_ne (by omega) heq

/-- A text that was written as a part of an address has the bytes of the text for its code units. -/
theorem unescape_encodeURIComponent (s : String) :
    unescape (encodeURIComponent s).toList = (utf8Bytes s).map UInt8.toNat := by
  rw [encodeURIComponent, String.toList_ofList]
  induction utf8Bytes s with
  | nil => rfl
  | cons b rest ih => rw [List.flatMap_cons, unescape_encodeByte, ih, List.map_cons]

/-- Escaped bytes are read as the text they are. -/
theorem decodeURIComponent_escape (bytes : List UInt8) : decodeURIComponent (escape bytes) = utf8Text? bytes := by
  rw [decodeURIComponent, escape, String.toList_ofList, percentDecode_escape, Option.bind_some]

end ZeroCode.Foundation
