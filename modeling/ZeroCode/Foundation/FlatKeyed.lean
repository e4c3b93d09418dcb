import Mathlib.Algebra.Order.Ring.Nat
import Mathlib.Data.List.DropRight

/-!
# Flat keyed files

A kernel reports its counters as lines of a key, a blank and a number. A reader looks for the
first line with its key, and takes a number it cannot read for zero. What such a reader finds
in a file of that form is the first number under its key.
-/

namespace ZeroCode.Foundation

/-- The lines of a text. A carriage return belongs to the end of its line. -/
def textLines : List Char → List (List Char)
  | [] => []
  | '\n' :: rest => [] :: textLines rest
  | '\r' :: '\n' :: rest => [] :: textLines rest
  | c :: rest =>
    match textLines rest with
    | [] => [[c]]
    | line :: others => (c :: line) :: others

/-- White space. -/
def isWhiteSpace (c : Char) : Bool :=
  let n := c.toNat
  (9 ≤ n && n ≤ 13) || (0x2000 ≤ n && n ≤ 0x200a) ||
    [0x20, 0x85, 0xa0, 0x1680, 0x2028, 0x2029, 0x202f, 0x205f, 0x3000].contains n

/-- A text without the white space around it. -/
def trimText (text : List Char) : List Char := (text.dropWhile isWhiteSpace).rdropWhile isWhiteSpace

/-- An unsigned number of so many bits. A plus may stand in front. -/
def parseUnsigned (bits : ℕ) (text : List Char) : Option ℕ :=
  let digits := match text with
    | '+' :: rest => rest
    | _ => text
  if digits ≠ [] ∧ digits.all Char.isDigit then
    let n := Nat.ofDigitChars 10 digits 0
    if n < 2 ^ bits then some n else none
  else none

/-- The number of a line with the key. -/
def numberOf? (key line : List Char) : Option ℕ :=
  if key ++ [' '] <+: line then some ((parseUnsigned 64 (trimText (line.drop (key.length + 1)))).getD 0) else none

/-- The number of the first line with the key. -/
def readKey (key text : List Char) : Option ℕ := (textLines text).findSome? (numberOf? key)

/-- The line of an entry. -/
def entryLine (entry : List Char × ℕ) : List Char := entry.1 ++ ' ' :: Nat.toDigits 10 entry.2

/-- A file of entries. -/
def writeEntries (entries : List (List Char × ℕ)) : List Char :=
  entries.flatMap fun entry => entryLine entry ++ ['\n']

/-- A key without blanks and line ends, and a number of 64 bits. -/
structure FlatEntry (entry : List Char × ℕ) : Prop where
  blank : ' ' ∉ entry.1
  newline : '\n' ∉ entry.1
  carriageReturn : '\r' ∉ entry.1
  bits : entry.2 < 2 ^ 64

/-- A line without line ends is the first of the lines. -/
theorem textLines_append {line : List Char} (hnewline : '\n' ∉ line) (hreturn : '\r' ∉ line) (rest : List Char) :
    textLines (line ++ '\n' :: rest) = line :: textLines rest := by
  induction line with
  | nil => rw [List.nil_append, textLines]
  | cons c line ih =>
    rw [List.mem_cons, not_or] at hnewline hreturn
    rw [List.cons_append, textLines, ih hnewline.2 hreturn.2]
    · exact fun h => hnewline.1 h.symm
    · exact fun _ h => absurd h.symm hreturn.1

/-- The digits of a number. -/
theorem isDigit_of_mem_digits {n : ℕ} {c : Char} (h : c ∈ Nat.toDigits 10 n) : c.isDigit = true :=
  Nat.isDigit_of_mem_toDigits (by decide) (le_refl 10) h

/-- Different numbers have different digits. -/
theorem toDigits_injective : Function.Injective (Nat.toDigits 10) := by
  intro m n h
  rw [← Nat.ofDigitChars_ten_toDigits (n := m), h, Nat.ofDigitChars_ten_toDigits]

/-- No digit is white space, a plus or a line end. -/
theorem not_isDigit {c : Char} (h : c.isDigit = true) : isWhiteSpace c = false ∧ c ≠ '+' ∧ c ≠ '\n' ∧ c ≠ '\r' := by
  have hbounds : 48 ≤ c.toNat ∧ c.toNat ≤ 57 := by simpa [Char.isDigit, UInt32.le_iff_toNat_le] using h
  refine ⟨?_, ?_, ?_, ?_⟩
  · simp [isWhiteSpace]
    omega
  all_goals
    rintro rfl
    exact absurd h (by decide)

/-- A printed number is read back. -/
theorem parseUnsigned_toDigits {bits n : ℕ} (h : n < 2 ^ bits) : parseUnsigned bits (Nat.toDigits 10 n) = some n := by
  obtain ⟨c, rest, hdigits⟩ := List.exists_cons_of_ne_nil (Nat.toDigits_ne_nil : Nat.toDigits 10 n ≠ [])
  have hall : (Nat.toDigits 10 n).all Char.isDigit = true := List.all_eq_true.mpr fun c => isDigit_of_mem_digits
  have hplus : c ≠ '+' := (not_isDigit (isDigit_of_mem_digits (hdigits ▸ List.mem_cons_self))).2.1
  have hvalue : Nat.ofDigitChars 10 (c :: rest) 0 = n := hdigits ▸ Nat.ofDigitChars_ten_toDigits
  rw [hdigits] at hall ⊢
  unfold parseUnsigned
  split
  rotate_left
  · simp [hall, hvalue, h]
  · rename_i heq
    exact absurd (List.cons.inj heq).1 hplus

/-- A printed number has no white space around it. -/
theorem trimText_toDigits (n : ℕ) : trimText (Nat.toDigits 10 n) = Nat.toDigits 10 n := by
  have hspace {c : Char} (h : c ∈ Nat.toDigits 10 n) : isWhiteSpace c ≠ true :=
    ne_true_of_eq_false (not_isDigit (isDigit_of_mem_digits h)).1
  have hfront : (Nat.toDigits 10 n).dropWhile isWhiteSpace = Nat.toDigits 10 n :=
    List.dropWhile_eq_self_iff.mpr fun h => hspace (List.getElem_mem h)
  rw [trimText, hfront]
  exact List.rdropWhile_eq_self_iff.mpr fun h => hspace (List.getLast_mem h)

/-- Lists that are the same up to a separator and behind it, if their first parts are free of it, are the same in both
parts. -/
theorem append_cons_inj {α : Type*} {a : α} {xs ys rest rest' : List α} (hxs : a ∉ xs) (hys : a ∉ ys)
    (h : xs ++ a :: rest = ys ++ a :: rest') : xs = ys ∧ rest = rest' := by
  induction xs generalizing ys with
  | nil =>
    cases ys with
    | nil => exact ⟨rfl, (List.cons.inj h).2⟩
    | cons b ys => exact absurd (List.mem_cons.mpr (Or.inl (List.cons.inj h).1)) hys
  | cons b xs ih =>
    cases ys with
    | nil => exact absurd (List.mem_cons.mpr (Or.inl (List.cons.inj h).1.symm)) hxs
    | cons c ys =>
      obtain ⟨rfl, htail⟩ := List.cons.inj h
      obtain ⟨rfl, hrest⟩ := ih (mt (List.mem_cons_of_mem b) hxs) (mt (List.mem_cons_of_mem b) hys) htail
      exact ⟨rfl, hrest⟩

/-- A line starts with a key and a blank exactly if it is the line of that key. -/
theorem key_isPrefix_iff {entry : List Char × ℕ} (h : FlatEntry entry) {key : List Char} (hkey : ' ' ∉ key) :
    key ++ [' '] <+: entryLine entry ↔ key = entry.1 := by
  constructor
  · rintro ⟨rest, hrest⟩
    rw [List.append_assoc, List.singleton_append, entryLine] at hrest
    exact (append_cons_inj hkey h.blank hrest).1
  · rintro rfl
    exact ⟨Nat.toDigits 10 entry.2, by simp [entryLine]⟩

/-- The line of an entry has its number under its key, and under no other. -/
theorem numberOf_entryLine {entry : List Char × ℕ} (h : FlatEntry entry) {key : List Char} (hkey : ' ' ∉ key) :
    numberOf? key (entryLine entry) = if key = entry.1 then some entry.2 else none := by
  unfold numberOf?
  by_cases heq : key = entry.1
  · have hnumber : (entryLine entry).drop (key.length + 1) = Nat.toDigits 10 entry.2 := by simp [entryLine, heq]
    rw [if_pos ((key_isPrefix_iff h hkey).mpr heq), if_pos heq, hnumber, trimText_toDigits, parseUnsigned_toDigits h.bits]
    rfl
  · rw [if_neg (mt (key_isPrefix_iff h hkey).mp heq), if_neg heq]

/-- The lines of a file of entries. -/
theorem textLines_writeEntries {entries : List (List Char × ℕ)} (h : ∀ entry ∈ entries, FlatEntry entry) :
    textLines (writeEntries entries) = entries.map entryLine := by
  induction entries with
  | nil => rfl
  | cons entry rest ih =>
    rw [List.forall_mem_cons] at h
    have outside {c : Char} (hkey : c ∉ entry.1) (hblank : c ≠ ' ') (hdigit : c.isDigit = false) :
        c ∉ entryLine entry := by
      intro hmem
      rcases List.mem_append.mp hmem with hin | hin
      · exact hkey hin
      · rcases List.mem_cons.mp hin with hspace | hdigits
        · exact hblank hspace
        · exact Bool.false_ne_true (hdigit.symm.trans (isDigit_of_mem_digits hdigits))
    rw [List.map_cons, ← ih h.2, writeEntries, List.flatMap_cons, List.append_assoc, List.singleton_append]
    exact textLines_append (outside h.1.newline (by decide) (by decide))
      (outside h.1.carriageReturn (by decide) (by decide)) _

/-- A file of entries is read as what was written. -/
theorem readKey_writeEntries {entries : List (List Char × ℕ)} (h : ∀ entry ∈ entries, FlatEntry entry)
    {key : List Char} (hkey : ' ' ∉ key) : readKey key (writeEntries entries) = entries.lookup key := by
  rw [readKey, textLines_writeEntries h, List.findSome?_map]
  induction entries with
  | nil => rfl
  | cons entry rest ih =>
    rw [List.forall_mem_cons] at h
    rw [List.findSome?_cons, Function.comp_apply, numberOf_entryLine h.1 hkey, List.lookup_cons]
    by_cases heq : key = entry.1
    · simp [heq]
    · rw [if_neg heq, beq_false_of_ne heq]
      exact ih h.2

end ZeroCode.Foundation
