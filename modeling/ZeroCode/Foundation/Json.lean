import Mathlib.Data.List.Nodup
import Mathlib.Algebra.Order.Ring.Int

/-!
# Enumerations as JSON values

The documented encodings of enumerations: a plain one is the name of its variant as a
string, an adjacently tagged one is an object that holds the name under one key and the
content of the variant, if it has any, under another. Names are the snake case of the names
in the program. What was written under the name of a variant is read by that variant, when
the names are distinct and so are the two keys.
-/

namespace ZeroCode.Foundation

/-- A JSON value whose numbers are integers. -/
inductive Json
  | null
  | bool (value : Bool)
  | number (value : ℤ)
  | string (value : String)
  | array (items : List Json)
  | object (fields : List (String × Json))

/-- The number fits in 32 bits with a sign. -/
def InI32 (n : ℤ) : Prop := -2 ^ 31 ≤ n ∧ n < 2 ^ 31

instance : DecidablePred InI32 := fun n => inferInstanceAs (Decidable (-2 ^ 31 ≤ n ∧ n < 2 ^ 31))

/-- Read a number of 32 bits. -/
def Json.toI32 : Json → Option ℤ
  | .number n => if InI32 n then some n else none
  | _ => none

/-- The snake case of a name: every capital but the first is set off by an underscore. -/
def snakeCase (name : String) : String :=
  String.ofList (name.toList.zipIdx.flatMap fun (c, i) => if 0 < i && c.isUpper then ['_', c.toLower] else [c.toLower])

variable {A : Type*}

/-- A variant of an enumeration: a plain one, or one whose content is read from a value. -/
inductive Variant (A : Type*)
  | unit (name : String) (value : A)
  | newtype (name : String) (read : Json → Option A)

/-- The name of a variant in JSON. -/
def Variant.jsonName : Variant A → String
  | .unit name _ => snakeCase name
  | .newtype name _ => snakeCase name

/-- Read the variant from its content. A plain variant has none, and a null counts as none. -/
def Variant.fromContent : Variant A → Option Json → Option A
  | .unit _ value, none => some value
  | .unit _ value, some .null => some value
  | .unit _ _, some _ => none
  | .newtype _ _, none => none
  | .newtype _ read, some content => read content

/-- The variant with this name in JSON. -/
def findVariant (variants : List (Variant A)) (name : String) : Option (Variant A) :=
  variants.find? fun v => v.jsonName == name

/-- Read a plain enumeration. -/
def enumFromValue (variants : List (Variant A)) : Json → Option A
  | .string name => (findVariant variants name).bind fun v => v.fromContent none
  | _ => none

/-- The two keys of an adjacently tagged enumeration. -/
structure Tagging where
  tag : String
  content : String

/-- Write a name and a content. -/
def Tagging.toValue (t : Tagging) (name : String) : Option Json → Json
  | none => .object [(t.tag, .string name)]
  | some content => .object [(t.tag, .string name), (t.content, content)]

/-- Read an adjacently tagged enumeration. The order of the keys does not matter, and other keys are skipped. -/
def Tagging.fromValue (t : Tagging) (variants : List (Variant A)) : Json → Option A
  | .object fields =>
    match fields.lookup t.tag with
    | some (.string name) => (findVariant variants name).bind fun v => v.fromContent (fields.lookup t.content)
    | _ => none
  | _ => none

/-- A number in range is read back. -/
theorem toI32_number {n : ℤ} (h : InI32 n) : (Json.number n).toI32 = some n := if_pos h

/-- Among variants of distinct names, each is found under its own. -/
theorem findVariant_jsonName {variants : List (Variant A)} (distinct : (variants.map Variant.jsonName).Nodup)
    {v : Variant A} (hv : v ∈ variants) : findVariant variants v.jsonName = some v := by
  obtain ⟨found, hfound⟩ : ∃ found, findVariant variants v.jsonName = some found :=
    Option.isSome_iff_exists.mp (List.find?_isSome.mpr ⟨v, hv, beq_self_eq_true _⟩)
  have hname : found.jsonName = v.jsonName := by simpa using List.find?_some hfound
  rw [hfound, List.inj_on_of_nodup_map distinct (List.mem_of_find?_eq_some hfound) hv hname]

/-- A name and a content are read by the variant of that name. -/
theorem Tagging.fromValue_toValue (t : Tagging) (hkeys : t.content ≠ t.tag) (variants : List (Variant A))
    (name : String) (content : Option Json) :
    t.fromValue variants (t.toValue name content) = (findVariant variants name).bind fun v => v.fromContent content := by
  have hother : (t.content == t.tag) = false := beq_false_of_ne hkeys
  cases content <;> simp [Tagging.toValue, Tagging.fromValue, List.lookup_cons, hother]

/-- What was written under the name of a variant is read by that variant. -/
theorem Tagging.fromValue_variant (t : Tagging) (hkeys : t.content ≠ t.tag) {variants : List (Variant A)}
    (distinct : (variants.map Variant.jsonName).Nodup) {v : Variant A} (hv : v ∈ variants) (content : Option Json) :
    t.fromValue variants (t.toValue v.jsonName content) = v.fromContent content := by
  rw [t.fromValue_toValue hkeys, findVariant_jsonName distinct hv, Option.bind_some]

/-- The name of a plain variant is read as that variant. -/
theorem enumFromValue_variant {variants : List (Variant A)} (distinct : (variants.map Variant.jsonName).Nodup)
    {v : Variant A} (hv : v ∈ variants) : enumFromValue variants (.string v.jsonName) = v.fromContent none := by
  rw [enumFromValue, findVariant_jsonName distinct hv, Option.bind_some]

end ZeroCode.Foundation
