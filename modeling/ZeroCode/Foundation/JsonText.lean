import ZeroCode.Foundation.Json

/-!
# The text of a JSON value

A value is written without any white space between its tokens. In a string the quote, the
backslash and the control characters are escaped, so that the whole text is one line.
-/

namespace ZeroCode.Foundation

/-- The lower case hexadecimal digits. -/
def lowerHexDigits : List Char :=
  ['0', '1', '2', '3', '4', '5', '6', '7', '8', '9', 'a', 'b', 'c', 'd', 'e', 'f']

/-- A hexadecimal digit. -/
def lowerHexDigit (n : ℕ) : Char := lowerHexDigits[n]?.getD '0'

/-- A character as it is written in a string. -/
def escapeChar (c : Char) : List Char :=
  if c = '"' then ['\\', '"']
  else if c = '\\' then ['\\', '\\']
  else if c = Char.ofNat 8 then ['\\', 'b']
  else if c = '\t' then ['\\', 't']
  else if c = '\n' then ['\\', 'n']
  else if c = Char.ofNat 12 then ['\\', 'f']
  else if c = '\r' then ['\\', 'r']
  else if c.toNat < 32 then
    ['\\', 'u', '0', '0', lowerHexDigit (c.toNat / 16), lowerHexDigit (c.toNat % 16)]
  else [c]

/-- A string with its quotes. -/
def quoted (value : String) : List Char := '"' :: (value.toList.flatMap escapeChar ++ ['"'])

/-- The decimal digits of a number, with its sign. -/
def decimal (n : ℤ) : List Char :=
  if n < 0 then '-' :: Nat.toDigits 10 n.natAbs else Nat.toDigits 10 n.natAbs

mutual

/-- The text of a value. -/
def Json.text : Json → List Char
  | .null => "null".toList
  | .bool value => (if value then "true" else "false").toList
  | .number value => decimal value
  | .string value => quoted value
  | .array items => '[' :: (textItems items ++ [']'])
  | .object fields => '\x7b' :: (textFields fields ++ ['\x7d'])

/-- The items of an array, separated by commas. -/
def textItems : List Json → List Char
  | [] => []
  | [item] => item.text
  | item :: next :: rest => item.text ++ ',' :: textItems (next :: rest)

/-- The fields of an object, separated by commas. -/
def textFields : List (String × Json) → List Char
  | [] => []
  | [(key, value)] => quoted key ++ ':' :: value.text
  | (key, value) :: next :: rest => quoted key ++ ':' :: (value.text ++ ',' :: textFields (next :: rest))

end

/-- A property of a value, if it is an object that has one of that name. Of several the last one counts. -/
def Json.property (key : String) : Json → Option Json
  | .object fields => fields.reverse.lookup key
  | _ => none

/-- The value is `null`. -/
def Json.isNull : Json → Bool
  | .null => true
  | _ => false

mutual

/-- A value as text, when it is appended to one. -/
def Json.coerced : Json → List Char
  | .null => "null".toList
  | .bool value => (if value then "true" else "false").toList
  | .number value => decimal value
  | .string value => value.toList
  | .array items => coercedItems items
  | .object _ => "[object Object]".toList

/-- The items of an array as text, where `null` is empty. -/
def coercedItems : List Json → List Char
  | [] => []
  | [item] => if item.isNull then [] else item.coerced
  | item :: next :: rest => (if item.isNull then [] else item.coerced) ++ ',' :: coercedItems (next :: rest)

end

/-- No digit is a newline. -/
theorem newline_ne_lowerHexDigit (n : ℕ) : '\n' ≠ lowerHexDigit n := by
  have habsent : '\n' ∉ lowerHexDigits := by decide
  unfold lowerHexDigit
  cases hdigit : lowerHexDigits[n]? with
  | none => decide
  | some d => exact fun heq => habsent (heq ▸ List.mem_of_getElem? hdigit)

/-- An escaped character is on one line. -/
theorem newline_notMem_escapeChar (c : Char) : '\n' ∉ escapeChar c := by
  unfold escapeChar
  split_ifs with hquote hbackslash hbackspace htab hnewline
  · decide
  · decide
  · decide
  · decide
  · decide
  · decide
  · decide
  · simp [newline_ne_lowerHexDigit]
  · simpa [eq_comm] using hnewline

/-- A quoted string is on one line. -/
theorem newline_notMem_quoted (value : String) : '\n' ∉ quoted value := by
  simp [quoted, newline_notMem_escapeChar]

/-- A number is on one line. -/
theorem newline_notMem_decimal (n : ℤ) : '\n' ∉ decimal n := by
  have hdigits : '\n' ∉ Nat.toDigits 10 n.natAbs := by
    intro h
    have hdigit := Nat.isDigit_of_mem_toDigits (by decide) (by decide) h
    exact absurd hdigit (by decide)
  unfold decimal
  split
  · simpa using hdigits
  · exact hdigits

mutual

/-- A value is written on one line. -/
theorem Json.newline_notMem_text : ∀ value : Json, '\n' ∉ value.text
  | .null => by simp [Json.text]
  | .bool value => by cases value <;> simp [Json.text]
  | .number value => newline_notMem_decimal value
  | .string value => newline_notMem_quoted value
  | .array items => by simp [Json.text, newline_notMem_textItems items]
  | .object fields => by simp [Json.text, newline_notMem_textFields fields]

/-- The items of an array are written on one line. -/
theorem newline_notMem_textItems : ∀ items : List Json, '\n' ∉ textItems items
  | [] => by simp [textItems]
  | [item] => by simp [textItems, Json.newline_notMem_text item]
  | item :: next :: rest => by
    simp [textItems, Json.newline_notMem_text item, newline_notMem_textItems (next :: rest)]

/-- The fields of an object are written on one line. -/
theorem newline_notMem_textFields : ∀ fields : List (String × Json), '\n' ∉ textFields fields
  | [] => by simp [textFields]
  | [(key, value)] => by simp [textFields, newline_notMem_quoted key, Json.newline_notMem_text value]
  | (key, value) :: next :: rest => by
    simp [textFields, newline_notMem_quoted key, Json.newline_notMem_text value,
      newline_notMem_textFields (next :: rest)]

end

end ZeroCode.Foundation
