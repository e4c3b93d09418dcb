import ZeroCode.Foundation.Incremental
import ZeroCode.Foundation.Text

/-!
# Decoding UTF-8 as it arrives

A decoder that takes byte after byte. It keeps the bits of a character that is not complete,
how many bytes of it are missing, and the range of the next one; what cannot be continued is
replaced, and the byte that did not fit is read again as a first one. The mark of the byte
order is skipped at the very beginning. A text is decoded from its own bytes.
-/

namespace ZeroCode.Foundation

/-- What is known of a character that is not complete. -/
structure Utf8State where
  codePoint : ℕ
  missing : ℕ
  lower : ℕ
  upper : ℕ
  deriving DecidableEq, Repr

/-- No character has begun. -/
def Utf8State.start : Utf8State := ⟨0, 0, 0x80, 0xbf⟩

/-- The character for what cannot be decoded. -/
def replacement : Char := '\ufffd'

/-- The mark of the byte order. -/
def byteOrderMark : Char := '\ufeff'

/-- Read the first byte of a character. -/
def utf8First (b : ℕ) : Utf8State × List Char :=
  if b ≤ 0x7f then (.start, [Char.ofNat b])
  else if 0xc2 ≤ b ∧ b ≤ 0xdf then (⟨b % 32, 1, 0x80, 0xbf⟩, [])
  else if 0xe0 ≤ b ∧ b ≤ 0xef then
    (⟨b % 16, 2, if b = 0xe0 then 0xa0 else 0x80, if b = 0xed then 0x9f else 0xbf⟩, [])
  else if 0xf0 ≤ b ∧ b ≤ 0xf4 then
    (⟨b % 8, 3, if b = 0xf0 then 0x90 else 0x80, if b = 0xf4 then 0x8f else 0xbf⟩, [])
  else (.start, [replacement])

/-- Read one byte. -/
def utf8Step (s : Utf8State) (byte : UInt8) : Utf8State × List Char :=
  let b := byte.toNat
  if s.missing = 0 then utf8First b
  else if s.lower ≤ b ∧ b ≤ s.upper then
    let codePoint := s.codePoint * 64 + b % 64
    if s.missing = 1 then (.start, [Char.ofNat codePoint]) else (⟨codePoint, s.missing - 1, 0x80, 0xbf⟩, [])
  else ((utf8First b).1, replacement :: (utf8First b).2)

/-- Skip the mark if it comes first. -/
def skipMark : Bool → List Char → Bool × List Char
  | seen, [] => (seen, [])
  | true, text => (true, text)
  | false, c :: rest => (true, if c = byteOrderMark then rest else c :: rest)

/-- A decoder between two pieces of a stream. -/
structure TextDecoder where
  utf8 : Utf8State
  bomSeen : Bool
  deriving DecidableEq, Repr

/-- A decoder that has read nothing. -/
def TextDecoder.new : TextDecoder := ⟨.start, false⟩

/-- Read one byte. -/
def TextDecoder.step (dec : TextDecoder) (byte : UInt8) : TextDecoder × List Char :=
  let read := utf8Step dec.utf8 byte
  let text := skipMark dec.bomSeen read.2
  (⟨read.1, text.1⟩, text.2)

/-- Decode a piece of a stream that goes on. -/
def TextDecoder.decode (dec : TextDecoder) (bytes : List UInt8) : TextDecoder × List Char :=
  transduce TextDecoder.step dec bytes

/-- Two pieces are decoded as one. -/
theorem TextDecoder.decode_append (dec : TextDecoder) (xs ys : List UInt8) :
    dec.decode (xs ++ ys) =
      (((dec.decode xs).1.decode ys).1, (dec.decode xs).2 ++ ((dec.decode xs).1.decode ys).2) :=
  transduce_append TextDecoder.step dec xs ys

/-- A byte in range continues a character that lacks more than one. -/
theorem utf8Step_continue {codePoint missing lower upper n : ℕ} (hlower : lower ≤ n) (hupper : n ≤ upper)
    (hn : n < 256) :
    utf8Step ⟨codePoint, missing + 2, lower, upper⟩ (UInt8.ofNat n) =
      (⟨codePoint * 64 + n % 64, missing + 1, 0x80, 0xbf⟩, []) := by
  have hbyte : (UInt8.ofNat n).toNat = n := UInt8.toNat_ofNat_of_lt' hn
  simp only [utf8Step, hbyte]
  rw [if_neg (by omega), if_pos ⟨hlower, hupper⟩, if_neg (by omega)]
  rfl

/-- A byte in range completes a character that lacks one. -/
theorem utf8Step_complete {codePoint lower upper n : ℕ} (hlower : lower ≤ n) (hupper : n ≤ upper) (hn : n < 256) :
    utf8Step ⟨codePoint, 1, lower, upper⟩ (UInt8.ofNat n) = (.start, [Char.ofNat (codePoint * 64 + n % 64)]) := by
  have hbyte : (UInt8.ofNat n).toNat = n := UInt8.toNat_ofNat_of_lt' hn
  simp only [utf8Step, hbyte]
  rw [if_neg (by omega), if_pos ⟨hlower, hupper⟩, if_pos trivial]

/-- A first byte is read as one. -/
theorem utf8Step_start {n : ℕ} (hn : n < 256) : utf8Step .start (UInt8.ofNat n) = utf8First n := by
  have hbyte : (UInt8.ofNat n).toNat = n := UInt8.toNat_ofNat_of_lt' hn
  simp only [utf8Step, hbyte]
  rfl

/-- A character is decoded from its own bytes. -/
theorem transduce_utf8EncodeChar (c : Char) :
    transduce utf8Step .start (String.utf8EncodeChar c) = (.start, [c]) := by
  have hvalid : c.val.toNat < 0xd800 ∨ 0xdfff < c.val.toNat ∧ c.val.toNat < 0x110000 := c.valid
  have hchar : Char.ofNat c.val.toNat = c := Char.ofNat_toNat c
  simp only [String.utf8EncodeChar]
  generalize c.val.toNat = v at hvalid hchar
  split
  · rename_i hone
    simp only [transduce, utf8Step_start (show v < 256 by omega), utf8First, if_pos hone, List.append_nil, hchar]
  · split
    · rename_i htwo
      have hfirst : utf8First (v / 64 % 32 + 0xc0) = (⟨(v / 64 % 32 + 0xc0) % 32, 1, 0x80, 0xbf⟩, []) := by
        rw [utf8First, if_neg (by omega), if_pos (by omega)]
      have hsum : (v / 64 % 32 + 0xc0) % 32 * 64 + (v % 64 + 0x80) % 64 = v := by omega
      simp only [transduce, utf8Step_start (show v / 64 % 32 + 0xc0 < 256 by omega), hfirst]
      rw [utf8Step_complete (by omega) (by omega) (by omega), hsum, hchar]
      rfl
    · split
      · rename_i hthree
        generalize hb : v / 4096 % 16 + 0xe0 = b
        have hfirst : utf8First b =
            (⟨b % 16, 2, if b = 0xe0 then 0xa0 else 0x80, if b = 0xed then 0x9f else 0xbf⟩, []) := by
          rw [utf8First, if_neg (by omega), if_neg (by omega), if_pos (by omega)]
        -- what is no shorter character, and no half of a pair, is in the range that the first byte leaves
        have hlower : (if b = 0xe0 then 0xa0 else 0x80) ≤ v / 64 % 64 + 0x80 := by
          split <;> omega
        have hupper : v / 64 % 64 + 0x80 ≤ if b = 0xed then 0x9f else 0xbf := by
          split <;> omega
        have hsum : (b % 16 * 64 + (v / 64 % 64 + 0x80) % 64) * 64 + (v % 64 + 0x80) % 64 = v := by omega
        simp only [transduce, utf8Step_start (show b < 256 by omega), hfirst]
        rw [utf8Step_continue hlower hupper (by omega), utf8Step_complete (by omega) (by omega) (by omega), hsum, hchar]
        rfl
      · generalize hb : v / 262144 % 8 + 0xf0 = b
        have hfirst : utf8First b =
            (⟨b % 8, 3, if b = 0xf0 then 0x90 else 0x80, if b = 0xf4 then 0x8f else 0xbf⟩, []) := by
          rw [utf8First, if_neg (by omega), if_neg (by omega), if_neg (by omega), if_pos (by omega)]
        have hlower : (if b = 0xf0 then 0x90 else 0x80) ≤ v / 4096 % 64 + 0x80 := by
          split <;> omega
        have hupper : v / 4096 % 64 + 0x80 ≤ if b = 0xf4 then 0x8f else 0xbf := by
          split <;> omega
        have hsum : ((b % 8 * 64 + (v / 4096 % 64 + 0x80) % 64) * 64 + (v / 64 % 64 + 0x80) % 64) * 64 +
            (v % 64 + 0x80) % 64 = v := by omega
        simp only [transduce, utf8Step_start (show b < 256 by omega), hfirst]
        rw [utf8Step_continue hlower hupper (by omega), utf8Step_continue (by omega) (by omega) (by omega),
          utf8Step_complete (by omega) (by omega) (by omega), hsum, hchar]
        rfl

/-- A text is decoded from its bytes. -/
theorem transduce_utf8Bytes (s : String) : transduce utf8Step .start (utf8Bytes s) = (.start, s.toList) := by
  rw [utf8Bytes_eq]
  induction s.toList with
  | nil => rfl
  | cons c rest ih =>
    rw [List.flatMap_cons, transduce_append, transduce_utf8EncodeChar, ih]
    rfl

/-- The mark is skipped from two pieces as from one. -/
theorem skipMark_append (seen : Bool) (xs ys : List Char) :
    skipMark seen (xs ++ ys) =
      ((skipMark (skipMark seen xs).1 ys).1, (skipMark seen xs).2 ++ (skipMark (skipMark seen xs).1 ys).2) := by
  have hseen (text : List Char) : skipMark true text = (true, text) := by
    cases text <;> rfl
  cases xs with
  | nil => rfl
  | cons c rest =>
    cases seen with
    | true => rw [hseen, hseen, hseen]
    | false =>
      have hfirst (text : List Char) :
          skipMark false (c :: text) = (true, if c = byteOrderMark then text else c :: text) := rfl
      rw [List.cons_append, hfirst, hfirst, hseen]
      split <;> rfl

/-- Decoding is decoding without regard to the mark, and skipping it. -/
theorem TextDecoder.decode_eq (dec : TextDecoder) (bytes : List UInt8) :
    dec.decode bytes =
      (⟨(transduce utf8Step dec.utf8 bytes).1, (skipMark dec.bomSeen (transduce utf8Step dec.utf8 bytes).2).1⟩,
        (skipMark dec.bomSeen (transduce utf8Step dec.utf8 bytes).2).2) := by
  unfold TextDecoder.decode
  induction bytes generalizing dec with
  | nil => cases dec; rfl
  | cons b rest ih =>
    simp only [transduce, ih, skipMark_append]
    rfl

end ZeroCode.Foundation
