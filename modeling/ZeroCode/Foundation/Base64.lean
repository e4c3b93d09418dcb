import Mathlib.Data.List.Basic
import Mathlib.Tactic.IntervalCases

/-!
# Base64

Bytes as digits of six bits, written with the letters of the standard alphabet. Three bytes
are four digits; one or two bytes at the end are two or three, whose last digit has bits to
spare. A strict reader insists that these are zero, a forgiving one drops them. The padding
is not part of the digits. A browser skips white space besides, and strips the padding of a
text whose length is a multiple of four.
-/

namespace ZeroCode.Foundation.Base64

/-- The letter of a digit. -/
def letter (d : ℕ) : Char :=
  if d < 26 then Char.ofNat (65 + d)
  else if d < 52 then Char.ofNat (97 + (d - 26))
  else if d < 62 then Char.ofNat (48 + (d - 52))
  else if d = 62 then '+'
  else '/'

/-- The digit of a letter. -/
def digit? (c : Char) : Option ℕ :=
  if 65 ≤ c.toNat ∧ c.toNat ≤ 90 then some (c.toNat - 65)
  else if 97 ≤ c.toNat ∧ c.toNat ≤ 122 then some (c.toNat - 97 + 26)
  else if 48 ≤ c.toNat ∧ c.toNat ≤ 57 then some (c.toNat - 48 + 52)
  else if c = '+' then some 62
  else if c = '/' then some 63
  else none

/-- The digits of a list of bytes. -/
def digits : List UInt8 → List ℕ
  | [] => []
  | [a] => [a.toNat / 4, a.toNat % 4 * 16]
  | [a, b] => [a.toNat / 4, a.toNat % 4 * 16 + b.toNat / 16, b.toNat % 16 * 4]
  | a :: b :: c :: rest =>
    a.toNat / 4 :: (a.toNat % 4 * 16 + b.toNat / 16) :: (b.toNat % 16 * 4 + c.toNat / 64) :: c.toNat % 64 :: digits rest

/-- The bytes of a list of digits. -/
def undigits (strict : Bool) : List ℕ → Option (List UInt8)
  | [] => some []
  | [_] => none
  | [p, q] => if strict && q % 16 != 0 then none else some [UInt8.ofNat (p * 4 + q / 16)]
  | [p, q, r] =>
    if strict && r % 4 != 0 then none
    else some [UInt8.ofNat (p * 4 + q / 16), UInt8.ofNat (q % 16 * 16 + r / 4)]
  | p :: q :: r :: s :: rest =>
    (undigits strict rest).map fun bytes =>
      UInt8.ofNat (p * 4 + q / 16) :: UInt8.ofNat (q % 16 * 16 + r / 4) :: UInt8.ofNat (r % 4 * 64 + s) :: bytes

/-- Write bytes without padding. -/
def encode (bytes : List UInt8) : List Char := (digits bytes).map letter

/-- The padding that makes the length a multiple of four. -/
def padding (bytes : List UInt8) : List Char := List.replicate ((3 - bytes.length % 3) % 3) '='

/-- Read bytes without padding. -/
def decode (strict : Bool) (text : List Char) : Option (List UInt8) := (text.mapM digit?).bind (undigits strict)

/-- White space that a browser skips. -/
def isSkipped (c : Char) : Bool := c == ' ' || c == '\t' || c == '\n' || c == '\r' || c == '\x0c'

/-- A text without the padding at its end, of which there are two letters at most. -/
def dropPadding (text : List Char) : List Char :=
  if text.length % 4 = 0 then
    match text.reverse with
    | '=' :: '=' :: rest => rest.reverse
    | '=' :: rest => rest.reverse
    | _ => text
  else text

/-- Read bytes as a browser does. -/
def forgiving (text : List Char) : Option (List UInt8) :=
  decode false (dropPadding (text.filter fun c => !isSkipped c))

/-- Every digit has a letter of its own. -/
theorem digit_letter {d : ℕ} (h : d < 64) : digit? (letter d) = some d := by
  interval_cases d <;> rfl

/-- A byte from its upper and its lower bits. -/
theorem ofNat_eq_of_toNat {a : UInt8} {n : ℕ} (h : n = a.toNat) : UInt8.ofNat n = a := by
  rw [h, UInt8.ofNat_toNat]

/-- Digits have six bits. -/
theorem lt_of_mem_digits {bytes : List UInt8} {d : ℕ} (h : d ∈ digits bytes) : d < 64 := by
  induction bytes using digits.induct with
  | case1 => cases h
  | case2 a =>
    have ha : a.toNat < 256 := a.toNat_lt
    simp only [digits, List.mem_cons, List.not_mem_nil, or_false] at h
    omega
  | case3 a b =>
    have ha : a.toNat < 256 := a.toNat_lt
    have hb : b.toNat < 256 := b.toNat_lt
    simp only [digits, List.mem_cons, List.not_mem_nil, or_false] at h
    omega
  | case4 a b c rest ih =>
    have ha : a.toNat < 256 := a.toNat_lt
    have hb : b.toNat < 256 := b.toNat_lt
    have hc : c.toNat < 256 := c.toNat_lt
    simp only [digits, List.mem_cons] at h
    rcases h with h | h | h | h | h
    · omega
    · omega
    · omega
    · omega
    · exact ih h

/-- The digits of bytes are read back, also by a strict reader. -/
theorem undigits_digits (strict : Bool) (bytes : List UInt8) : undigits strict (digits bytes) = some bytes := by
  induction bytes using digits.induct with
  | case1 => rfl
  | case2 a =>
    have ha : a.toNat < 256 := a.toNat_lt
    have hspare : a.toNat % 4 * 16 % 16 = 0 := by omega
    have hbyte : a.toNat / 4 * 4 + a.toNat % 4 * 16 / 16 = a.toNat := by omega
    rw [digits, undigits, if_neg (by simp [hspare]), ofNat_eq_of_toNat hbyte]
  | case3 a b =>
    have ha : a.toNat < 256 := a.toNat_lt
    have hb : b.toNat < 256 := b.toNat_lt
    have hspare : b.toNat % 16 * 4 % 4 = 0 := by omega
    have hfirst : a.toNat / 4 * 4 + (a.toNat % 4 * 16 + b.toNat / 16) / 16 = a.toNat := by omega
    have hsecond : (a.toNat % 4 * 16 + b.toNat / 16) % 16 * 16 + b.toNat % 16 * 4 / 4 = b.toNat := by omega
    rw [digits, undigits, if_neg (by simp [hspare]), ofNat_eq_of_toNat hfirst, ofNat_eq_of_toNat hsecond]
  | case4 a b c rest ih =>
    have ha : a.toNat < 256 := a.toNat_lt
    have hb : b.toNat < 256 := b.toNat_lt
    have hc : c.toNat < 256 := c.toNat_lt
    have hfirst : a.toNat / 4 * 4 + (a.toNat % 4 * 16 + b.toNat / 16) / 16 = a.toNat := by omega
    have hsecond : (a.toNat % 4 * 16 + b.toNat / 16) % 16 * 16 + (b.toNat % 16 * 4 + c.toNat / 64) / 4 = b.toNat := by
      omega
    have hthird : (b.toNat % 16 * 4 + c.toNat / 64) % 4 * 64 + c.toNat % 64 = c.toNat := by omega
    rw [digits, undigits, ih, Option.map_some, ofNat_eq_of_toNat hfirst, ofNat_eq_of_toNat hsecond,
      ofNat_eq_of_toNat hthird]

/-- The letters of digits are read back. -/
theorem mapM_digit_letter {ds : List ℕ} (h : ∀ d ∈ ds, d < 64) : (ds.map letter).mapM digit? = some ds := by
  induction ds with
  | nil => rfl
  | cons d rest ih =>
    have hrest := ih fun e he => h e (List.mem_cons_of_mem d he)
    simp [List.mapM_cons, digit_letter (h d List.mem_cons_self), hrest]

/-- What was written is read back, also by a strict reader. -/
theorem decode_encode (strict : Bool) (bytes : List UInt8) : decode strict (encode bytes) = some bytes := by
  rw [decode, encode, mapM_digit_letter fun d hd => lt_of_mem_digits hd, Option.bind_some, undigits_digits]

/-- No padding is written. -/
theorem padding_not_mem_encode (bytes : List UInt8) : '=' ∉ encode bytes := by
  intro h
  obtain ⟨d, hd, heq⟩ := List.mem_map.mp h
  have hdigit := digit_letter (lt_of_mem_digits hd)
  rw [heq] at hdigit
  cases hdigit

/-- White space has no digit. -/
theorem digit_eq_none_of_isSkipped {c : Char} (h : isSkipped c = true) : digit? c = none := by
  simp only [isSkipped, Bool.or_eq_true, beq_iff_eq] at h
  rcases h with (((rfl | rfl) | rfl) | rfl) | rfl <;> rfl

/-- No white space is written. -/
theorem filter_encode (bytes : List UInt8) : ((encode bytes).filter fun c => !isSkipped c) = encode bytes := by
  refine List.filter_eq_self.mpr fun c hc => ?_
  obtain ⟨d, hd, rfl⟩ := List.mem_map.mp hc
  cases hskipped : isSkipped (letter d) with
  | false => rfl
  | true =>
    have hdigit := digit_letter (lt_of_mem_digits hd)
    rw [digit_eq_none_of_isSkipped hskipped] at hdigit
    cases hdigit

/-- A text without padding is left as it is. -/
theorem dropPadding_eq_self {text : List Char} (h : '=' ∉ text) : dropPadding text = text := by
  have hreverse : '=' ∉ text.reverse := fun hmem => h (List.mem_reverse.mp hmem)
  unfold dropPadding
  split
  · split
    · rename_i heq
      exact absurd (heq ▸ List.mem_cons_self) hreverse
    · rename_i heq
      exact absurd (heq ▸ List.mem_cons_self) hreverse
    · rfl
  · rfl

/-- A browser reads what was written, also without the padding. -/
theorem forgiving_encode (bytes : List UInt8) : forgiving (encode bytes) = some bytes := by
  rw [forgiving, filter_encode, dropPadding_eq_self (padding_not_mem_encode bytes), decode_encode]

/-- With its padding a text has a multiple of four letters. -/
theorem length_encode_padding (bytes : List UInt8) : (encode bytes ++ padding bytes).length % 4 = 0 := by
  have hdigits : ((digits bytes).length + (3 - bytes.length % 3) % 3) % 4 = 0 := by
    induction bytes using digits.induct with
    | case1 => rfl
    | case2 a => simp [digits]
    | case3 a b => simp [digits]
    | case4 a b c rest ih =>
      simp only [digits, List.length_cons] at ih ⊢
      omega
  rw [encode, padding, List.length_append, List.length_map, List.length_replicate]
  exact hdigits

/-- The padding that was written is dropped. -/
theorem dropPadding_padded (bytes : List UInt8) : dropPadding (encode bytes ++ padding bytes) = encode bytes := by
  have hnone : '=' ∉ encode bytes := padding_not_mem_encode bytes
  have hreverse : '=' ∉ (encode bytes).reverse := fun hmem => hnone (List.mem_reverse.mp hmem)
  have hlength := length_encode_padding bytes
  have hcount : (3 - bytes.length % 3) % 3 < 3 := Nat.mod_lt _ (by decide)
  rw [padding] at hlength ⊢
  generalize (3 - bytes.length % 3) % 3 = count at hlength hcount ⊢
  rw [dropPadding, if_pos hlength, List.reverse_append, List.reverse_replicate]
  match count, hcount with
  | 0, _ =>
    rw [List.replicate_zero, List.nil_append, List.append_nil]
    split
    · simp_all
    · simp_all
    · rfl
  | 1, _ =>
    change (match '=' :: (encode bytes).reverse with
      | '=' :: '=' :: rest => rest.reverse
      | '=' :: rest => rest.reverse
      | _ => _) = _
    split
    · simp_all
    · rename_i heq
      rw [← (List.cons.inj heq).2, List.reverse_reverse]
    · simp_all
  | 2, _ => exact List.reverse_reverse _

/-- What is written with padding is read back. -/
theorem forgiving_padded (bytes : List UInt8) : forgiving (encode bytes ++ padding bytes) = some bytes := by
  have hpadding : ((padding bytes).filter fun c => !isSkipped c) = padding bytes :=
    List.filter_eq_self.mpr fun c hc => (List.eq_of_mem_replicate hc) ▸ rfl
  rw [forgiving, List.filter_append, filter_encode, hpadding, dropPadding_padded, decode_encode]

/-- Digits have three quarters as many bytes at most. -/
theorem length_undigits {strict : Bool} {ds : List ℕ} {bytes : List UInt8} (h : undigits strict ds = some bytes) :
    4 * bytes.length ≤ 3 * ds.length := by
  fun_induction undigits strict ds generalizing bytes with
  | case1 =>
    cases h
    simp
  | case2 => cases h
  | case3 => cases h
  | case4 =>
    cases h
    simp
  | case5 => cases h
  | case6 =>
    cases h
    simp
  | case7 p q r s rest ih =>
    obtain ⟨others, hothers, rfl⟩ := Option.map_eq_some_iff.mp h
    have hrest := ih hothers
    simp only [List.length_cons]
    omega

/-- A text has as many digits as letters. -/
theorem length_mapM_digit {text : List Char} {ds : List ℕ} (h : text.mapM digit? = some ds) :
    ds.length = text.length := by
  induction text generalizing ds with
  | nil =>
    cases h
    rfl
  | cons c rest ih =>
    rw [List.mapM_cons] at h
    obtain ⟨d, _, h⟩ := Option.bind_eq_some_iff.mp h
    obtain ⟨others, hothers, h⟩ := Option.bind_eq_some_iff.mp h
    cases h
    rw [List.length_cons, List.length_cons, ih hothers]

/-- A text has three quarters as many bytes at most. -/
theorem length_decode {strict : Bool} {text : List Char} {bytes : List UInt8} (h : decode strict text = some bytes) :
    4 * bytes.length ≤ 3 * text.length := by
  obtain ⟨ds, hds, hbytes⟩ := Option.bind_eq_some_iff.mp h
  rw [← length_mapM_digit hds]
  exact length_undigits hbytes

/-- Dropping the padding leaves no more letters. -/
theorem length_dropPadding (text : List Char) : (dropPadding text).length ≤ text.length := by
  have hreverse : text.reverse.length = text.length := List.length_reverse
  unfold dropPadding
  split
  · split
    · rename_i rest heq
      rw [heq, List.length_cons, List.length_cons] at hreverse
      rw [List.length_reverse]
      omega
    · rename_i rest _ heq
      rw [heq, List.length_cons] at hreverse
      rw [List.length_reverse]
      omega
    · exact le_rfl
  · exact le_rfl

/-- What a browser reads has three quarters as many bytes as the text at most. -/
theorem length_forgiving {text : List Char} {bytes : List UInt8} (h : forgiving text = some bytes) :
    4 * bytes.length ≤ 3 * text.length := by
  have hdecode := length_decode h
  have hdrop := length_dropPadding (text.filter fun c => !isSkipped c)
  have hfilter : (text.filter fun c => !isSkipped c).length ≤ text.length := List.length_filter_le _ _
  omega

end ZeroCode.Foundation.Base64
