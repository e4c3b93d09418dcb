import Mathlib.Data.Char
import ZeroCode.Core.Language
import ZeroCode.Foundation.FixedDigits

/-!
# Tokens as texts

A token is a ULID: the milliseconds of its creation in the high 48 bits, randomness in the
low 80. Its text has 26 symbols of five bits each, and texts compare like the tokens.
-/

namespace ZeroCode.Core

open ZeroCode.Foundation

/-- A fresh token, from the clock in milliseconds and from randomness. -/
def Token.new (milliseconds random : ℕ) : Token := milliseconds % 2 ^ 48 * 2 ^ 80 + random % 2 ^ 80

/-- The symbols of the text of a token, in their order. -/
def crockford : List Char := "0123456789ABCDEFGHJKMNPQRSTVWXYZ".toList

/-- The symbol of five bits. -/
def crockfordSymbol (d : ℕ) : Char := crockford.getD d '0'

/-- The text of a token. -/
def Token.text (t : Token) : List Char := (fixedDigits 32 26 t).map crockfordSymbol

/-- A fresh token has 128 bits. -/
theorem Token.new_lt (milliseconds random : ℕ) : Token.new milliseconds random < 2 ^ 128 := by
  change milliseconds % 2 ^ 48 * 2 ^ 80 + random % 2 ^ 80 < (2 ^ 128 : ℕ)
  omega

/-- The symbols are in the order of the digits. -/
theorem crockfordSymbol_lt_iff (a : ℕ) (ha : a < 32) (b : ℕ) (hb : b < 32) :
    crockfordSymbol a < crockfordSymbol b ↔ a < b := by
  revert a b
  decide

/-- The texts of tokens compare like the tokens. -/
theorem Token.text_lt_iff {t t' : ℕ} (ht : t < 2 ^ 128) (ht' : t' < 2 ^ 128) : text t < text t' ↔ t < t' := by
  have digits {n d : ℕ} (hd : d ∈ fixedDigits 32 26 n) : d < 32 := lt_of_mem_fixedDigits (by omega) hd
  rw [text, text, map_lt_map_iff crockfordSymbol_lt_iff (fun a ha => digits ha) (fun b hb => digits hb),
    fixedDigits_lt_iff (by omega), Nat.mod_eq_of_lt (by omega), Nat.mod_eq_of_lt (by omega)]

end ZeroCode.Core
