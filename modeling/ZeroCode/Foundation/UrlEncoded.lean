import ZeroCode.Foundation.TextDecoder

/-!
# Parameters in an address

The parameters of an address are pairs of texts, joined by separators. Letters, digits and
four signs stand for themselves, a blank is a plus sign, and every other byte of the UTF-8 is
a percent sign with two hexadecimal digits. What was written is read back, and holds no
character that an address would encode once more.
-/

namespace ZeroCode.Foundation

/-- The bytes that stand for themselves: letters, digits and four signs. -/
def isFormPlain (n : ℕ) : Bool :=
  (65 ≤ n && n ≤ 90) || (97 ≤ n && n ≤ 122) || (48 ≤ n && n ≤ 57) || [42, 45, 46, 95].contains n

/-- A byte of a parameter. -/
def formByte (b : UInt8) : List Char :=
  if isFormPlain b.toNat then [Char.ofNat b.toNat]
  else if b.toNat = 32 then ['+']
  else ['%', hexDigit (b.toNat / 16), hexDigit (b.toNat % 16)]

/-- A text as a part of a parameter. -/
def formText (s : String) : List Char := (utf8Bytes s).flatMap formByte

/-- A parameter. -/
def formPair (pair : String × String) : List Char := formText pair.1 ++ '=' :: formText pair.2

/-- Write the parameters. -/
def formSerialize (pairs : List (String × String)) : List Char := ['&'].intercalate (pairs.map formPair)

/-- The bytes that a part of a parameter stands for. A percent sign without two digits stands for itself. -/
def formBytes : List Char → List UInt8
  | [] => []
  | '%' :: a :: b :: rest =>
    match hexValue? a, hexValue? b with
    | some h, some l => UInt8.ofNat (h * 16 + l) :: formBytes rest
    | _, _ => 37 :: formBytes (a :: b :: rest)
  | '+' :: rest => 32 :: formBytes rest
  | c :: rest => String.utf8EncodeChar c ++ formBytes rest

/-- Decode bytes, with a replacement for what is no UTF-8. -/
def decodeLossy (bytes : List UInt8) : List Char :=
  let read := transduce utf8Step .start bytes
  read.2 ++ if read.1.missing = 0 then [] else [replacement]

/-- Read a part of a parameter. -/
def formDecode (part : List Char) : String := String.ofList (decodeLossy (formBytes part))

/-- Read the parameters. A parameter without an equals sign has an empty value, and one without a letter is none. -/
def formParse (text : List Char) : List (String × String) :=
  (text.splitOn '&').filterMap fun piece =>
    if piece.isEmpty then none
    else
      let parts := (cutAt ['='] piece).getD (piece, [])
      some (formDecode parts.1, formDecode parts.2)

/-- The first value of a parameter. -/
def getParam (pairs : List (String × String)) (name : String) : Option String := pairs.lookup name

/-- Set a parameter: its first value is replaced and its others are deleted, or it is put behind. -/
def setParam (name value : String) : List (String × String) → List (String × String)
  | [] => [(name, value)]
  | pair :: rest =>
    if pair.1 = name then (name, value) :: rest.filter fun other => other.1 ≠ name else pair :: setParam name value rest

/-- The characters that an address encodes in its fragment. -/
def isFragmentEncoded (c : Char) : Bool :=
  c.toNat < 32 || 126 < c.toNat || [' ', '"', '<', '>', '\x60'].contains c

/-- The fragment of an address. -/
def fragmentText (text : List Char) : List Char :=
  text.flatMap fun c =>
    if isFragmentEncoded c then
      (String.utf8EncodeChar c).flatMap fun b => ['%', hexDigit (b.toNat / 16), hexDigit (b.toNat % 16)]
    else [c]

/-- A byte that stands for itself is a character of its own, and none with a meaning. -/
theorem formPlain_spec {n : ℕ} (h : isFormPlain n = true) :
    Char.ofNat n ∉ ['%', '+', '&', '=', '?'] ∧ isFragmentEncoded (Char.ofNat n) = false ∧
      String.utf8EncodeChar (Char.ofNat n) = [UInt8.ofNat n] := by
  have hsmall : n < 128 := by
    simp only [isFormPlain, Bool.or_eq_true, Bool.and_eq_true, decide_eq_true_eq, List.contains_iff_mem, List.mem_cons,
      List.not_mem_nil, or_false] at h
    omega
  interval_cases n <;> first | exact ⟨by decide, by decide, by decide⟩ | cases h

/-- A hexadecimal digit is none of the characters with a meaning. -/
theorem hexDigit_spec {n : ℕ} (h : n < 16) :
    hexDigit n ∉ ['&', '=', '?'] ∧ isFragmentEncoded (hexDigit n) = false := by
  interval_cases n <;> exact ⟨by decide, by decide⟩

/-- A byte that was written is no character with a meaning, and an address leaves it alone. -/
theorem mem_formByte {b : UInt8} {c : Char} (hc : c ∈ formByte b) :
    c ∉ ['&', '=', '?'] ∧ isFragmentEncoded c = false := by
  have hb : b.toNat < 256 := b.toNat_lt
  unfold formByte at hc
  split_ifs at hc with hplain hblank
  · obtain rfl := List.mem_singleton.mp hc
    obtain ⟨hmeaning, hfragment, -⟩ := formPlain_spec hplain
    exact ⟨fun hmem => hmeaning (List.mem_cons_of_mem _ (List.mem_cons_of_mem _ hmem)), hfragment⟩
  · obtain rfl := List.mem_singleton.mp hc
    exact ⟨by decide, by decide⟩
  · simp only [List.mem_cons, List.not_mem_nil, or_false] at hc
    rcases hc with rfl | rfl | rfl
    · exact ⟨by decide, by decide⟩
    · exact hexDigit_spec (by omega)
    · exact hexDigit_spec (by omega)

/-- A byte that was written is read back. -/
theorem formBytes_formByte (b : UInt8) (rest : List Char) : formBytes (formByte b ++ rest) = b :: formBytes rest := by
  have hb : b.toNat < 256 := b.toNat_lt
  unfold formByte
  split_ifs with hplain hblank
  · obtain ⟨hmeaning, -, hbytes⟩ := formPlain_spec hplain
    rw [List.singleton_append, formBytes, hbytes, UInt8.ofNat_toNat, List.singleton_append]
    · exact fun _ _ _ heq _ => hmeaning (by simp [heq])
    · exact fun heq => hmeaning (by simp [heq])
  · have hblank' : b = 32 := UInt8.toNat_inj.mp hblank
    rw [List.singleton_append, formBytes, hblank']
  · have hsum : b.toNat / 16 * 16 + b.toNat % 16 = b.toNat := by omega
    have hhigh : hexValue? (hexDigit (b.toNat / 16)) = some (b.toNat / 16) := hexValue_hexDigit (by omega)
    have hlow : hexValue? (hexDigit (b.toNat % 16)) = some (b.toNat % 16) := hexValue_hexDigit (by omega)
    simp only [List.cons_append, List.nil_append, formBytes, hhigh, hlow, hsum, UInt8.ofNat_toNat]

/-- A text that was written is read back. -/
theorem formDecode_formText (s : String) : formDecode (formText s) = s := by
  have hbytes (bytes : List UInt8) : formBytes (bytes.flatMap formByte) = bytes := by
    induction bytes with
    | nil => rfl
    | cons b rest ih => rw [List.flatMap_cons, formBytes_formByte, ih]
  rw [formDecode, formText, hbytes, decodeLossy, transduce_utf8Bytes]
  exact (congrArg String.ofList (List.append_nil _)).trans String.ofList_toList

/-- A text that was written holds no separator, and an address leaves it alone. -/
theorem mem_formText {s : String} {c : Char} (hc : c ∈ formText s) :
    c ∉ ['&', '=', '?'] ∧ isFragmentEncoded c = false := by
  obtain ⟨b, -, hb⟩ := List.mem_flatMap.mp hc
  exact mem_formByte hb

/-- A parameter holds no separator of parameters, and an address leaves it alone. -/
theorem mem_formPair {pair : String × String} {c : Char} (hc : c ∈ formPair pair) :
    c ∉ ['&', '?'] ∧ isFragmentEncoded c = false := by
  have part {s : String} (hmem : c ∈ formText s) : c ∉ ['&', '?'] ∧ isFragmentEncoded c = false := by
    obtain ⟨hmeaning, hfragment⟩ := mem_formText hmem
    exact ⟨fun hbad => hmeaning (by aesop), hfragment⟩
  rcases List.mem_append.mp hc with hname | hvalue
  · exact part hname
  · rcases List.mem_cons.mp hvalue with rfl | hvalue
    · exact ⟨by decide, by decide⟩
    · exact part hvalue

/-- The parameters hold no question mark, and an address leaves them alone. -/
theorem mem_formSerialize {pairs : List (String × String)} {c : Char} (hc : c ∈ formSerialize pairs) :
    c ≠ '?' ∧ isFragmentEncoded c = false := by
  have one {pair : String × String} (hmem : c ∈ formPair pair) : c ≠ '?' ∧ isFragmentEncoded c = false := by
    obtain ⟨hmeaning, hfragment⟩ := mem_formPair hmem
    exact ⟨fun heq => hmeaning (by simp [heq]), hfragment⟩
  induction pairs with
  | nil => exact absurd hc List.not_mem_nil
  | cons pair rest ih =>
    by_cases hrest : rest = []
    · subst hrest
      rw [formSerialize, List.map_singleton, List.intercalate_singleton] at hc
      exact one hc
    · rw [formSerialize, List.map_cons, List.intercalate_cons_of_ne_nil (by simpa using hrest), List.append_assoc] at hc
      rcases List.mem_append.mp hc with hpair | hc
      · exact one hpair
      · rcases List.mem_append.mp hc with hseparator | hlater
        · obtain rfl := List.mem_singleton.mp hseparator
          exact ⟨by decide, by decide⟩
        · exact ih hlater

/-- The parameters that were written are read back. -/
theorem formParse_formSerialize (pairs : List (String × String)) : formParse (formSerialize pairs) = pairs := by
  by_cases hpairs : pairs = []
  · subst hpairs
    rfl
  have hpieces : ∀ piece ∈ pairs.map formPair, '&' ∉ piece := by
    intro piece hpiece hmem
    obtain ⟨pair, -, rfl⟩ := List.mem_map.mp hpiece
    exact (mem_formPair hmem).1 (by decide)
  have hread (pair : String × String) : ((fun piece => if piece.isEmpty then none
      else
        let parts := (cutAt ['='] piece).getD (piece, [])
        some (formDecode parts.1, formDecode parts.2)) ∘ formPair) pair = some pair := by
    have hname : '=' ∉ formText pair.1 := fun hmem => (mem_formText hmem).1 (by decide)
    have hkept : (formPair pair).isEmpty = false := by simp [formPair]
    simp only [Function.comp_apply, hkept, Bool.false_eq_true, if_false]
    rw [formPair, cutAt_symbol hname, Option.getD_some, formDecode_formText, formDecode_formText]
  rw [formParse, formSerialize, List.splitOn_intercalate '&' hpieces (by simpa using hpairs), List.filterMap_map,
    funext hread, List.filterMap_some]

/-- An address leaves the parameters as they were written. -/
theorem fragmentText_formSerialize (pairs : List (String × String)) :
    fragmentText (formSerialize pairs) = formSerialize pairs := by
  have hself (text : List Char) (htext : ∀ c ∈ text, isFragmentEncoded c = false) : fragmentText text = text := by
    induction text with
    | nil => rfl
    | cons c rest ih =>
      have hc : isFragmentEncoded c = false := htext c List.mem_cons_self
      rw [fragmentText, List.flatMap_cons, if_neg (Bool.eq_false_iff.mp hc)]
      exact congrArg _ (ih fun d hd => htext d (List.mem_cons_of_mem c hd))
  exact hself _ fun c hc => (mem_formSerialize hc).2

/-- A parameter that is set has the value, and the others keep theirs. -/
theorem getParam_setParam (name value other : String) (pairs : List (String × String)) :
    getParam (setParam name value pairs) other = if other = name then some value else getParam pairs other := by
  induction pairs with
  | nil =>
    by_cases hother : other = name
    · rw [if_pos hother, setParam, getParam, hother, List.lookup_cons_self]
    · rw [if_neg hother, setParam, getParam, List.lookup_cons, beq_eq_false_iff_ne.mpr hother]
      rfl
  | cons pair rest ih =>
    rw [setParam]
    split_ifs with hfirst hother hother
    · rw [getParam, hother, List.lookup_cons_self]
    · have hkept : ∀ pairs : List (String × String),
          (pairs.filter fun later => later.1 ≠ name).lookup other = pairs.lookup other := by
        intro pairs
        induction pairs with
        | nil => rfl
        | cons later more ih =>
          by_cases hlater : later.1 = name
          · have hskip : (other == later.1) = false := beq_eq_false_iff_ne.mpr (hlater ▸ hother)
            rw [List.filter_cons_of_neg (by simpa using hlater), ih, List.lookup_cons, hskip]
          · rw [List.filter_cons_of_pos (by simpa using hlater), List.lookup_cons, ih, List.lookup_cons]
      have hskip : (other == name) = false := beq_eq_false_iff_ne.mpr hother
      rw [getParam, List.lookup_cons, hskip, getParam, List.lookup_cons, hfirst, hskip]
      exact hkept rest
    · subst hother
      have hskip : (other == pair.1) = false := beq_eq_false_iff_ne.mpr (Ne.symm hfirst)
      rw [getParam, List.lookup_cons, hskip]
      exact ih.trans (if_pos rfl)
    · rw [getParam, List.lookup_cons, getParam, List.lookup_cons]
      rw [getParam, getParam, if_neg hother] at ih
      rw [ih]

end ZeroCode.Foundation
