import Mathlib.Algebra.Order.Ring.Nat
import Mathlib.Data.List.Lex

/-!
# Digits of a fixed width

Numbers written with the same number of digits, the highest digit first, compare as texts
the way they compare as numbers, whatever symbols the digits are written with, as long as
the symbols are in the order of the digits.
-/

namespace ZeroCode.Foundation

/-- The lowest `width` digits of a number, the highest of them first. -/
def fixedDigits (base : ℕ) : ℕ → ℕ → List ℕ
  | 0, _ => []
  | width + 1, n => n / base ^ width % base :: fixedDigits base width n

/-- Every digit is below the base. -/
theorem lt_of_mem_fixedDigits {base : ℕ} (hbase : 0 < base) {width n d : ℕ} (hd : d ∈ fixedDigits base width n) :
    d < base := by
  induction width with
  | zero => cases hd
  | succ width ih =>
    rcases List.mem_cons.mp hd with rfl | hrest
    · exact Nat.mod_lt _ hbase
    · exact ih hrest

/-- Digits compare like the numbers they are the lowest digits of. -/
theorem fixedDigits_lt_iff {base : ℕ} (hbase : 0 < base) (width m n : ℕ) :
    fixedDigits base width m < fixedDigits base width n ↔ m % base ^ width < n % base ^ width := by
  induction width with
  | zero => simp [fixedDigits, Nat.mod_one]
  | succ width ih =>
    rw [fixedDigits, fixedDigits, List.cons_lt_cons_iff, ih, Nat.mod_pow_succ, Nat.mod_pow_succ]
    have hpos : 0 < base ^ width := Nat.pow_pos hbase
    have hm : m % base ^ width < base ^ width := Nat.mod_lt _ hpos
    have hn : n % base ^ width < base ^ width := Nat.mod_lt _ hpos
    generalize m / base ^ width % base = a
    generalize n / base ^ width % base = b
    generalize m % base ^ width = low at hm ⊢
    generalize n % base ^ width = low' at hn ⊢
    rcases Nat.lt_trichotomy a b with hab | rfl | hba
    -- the highest digit decides
    · have hscaled : base ^ width * (a + 1) ≤ base ^ width * b := Nat.mul_le_mul_left _ hab
      rw [Nat.mul_succ] at hscaled
      exact ⟨fun _ => by omega, fun _ => Or.inl hab⟩
    · simp
    · have hscaled : base ^ width * (b + 1) ≤ base ^ width * a := Nat.mul_le_mul_left _ hba
      rw [Nat.mul_succ] at hscaled
      constructor
      · rintro (hlt | ⟨rfl, _⟩) <;> omega
      · intro hlt
        omega

/-- Writing the digits with symbols in the same order keeps the comparison. -/
theorem map_lt_map_iff {S : Type*} [LinearOrder S] {symbol : ℕ → S} {base : ℕ}
    (hsymbol : ∀ a < base, ∀ b < base, symbol a < symbol b ↔ a < b) {as bs : List ℕ} (has : ∀ a ∈ as, a < base)
    (hbs : ∀ b ∈ bs, b < base) : as.map symbol < bs.map symbol ↔ as < bs := by
  induction as generalizing bs with
  | nil => cases bs <;> simp
  | cons a as ih =>
    cases bs with
    | nil => simp
    | cons b bs =>
      obtain ⟨ha, has⟩ := List.forall_mem_cons.mp has
      obtain ⟨hb, hbs⟩ := List.forall_mem_cons.mp hbs
      have heq : symbol a = symbol b ↔ a = b := by
        have hab := hsymbol a ha b hb
        have hba := hsymbol b hb a ha
        constructor
        · intro hsame
          rw [hsame] at hab hba
          have hle : ¬ a < b := hab.not.mp (lt_irrefl _)
          have hge : ¬ b < a := hba.not.mp (lt_irrefl _)
          omega
        · exact fun hsame => by rw [hsame]
      rw [List.map_cons, List.map_cons, List.cons_lt_cons_iff, List.cons_lt_cons_iff, hsymbol a ha b hb, heq,
        ih has hbs]

end ZeroCode.Foundation
