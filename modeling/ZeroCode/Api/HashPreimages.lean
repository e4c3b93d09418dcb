import Mathlib.Data.Set.Lattice
import Mathlib.Order.CompletePartialOrder
import ZeroCode.Api.Idempotency
import ZeroCode.Cache.ResultKey

/-!
# What is hashed

Three kinds of bytes are hashed: those of a result key, of a compile key and of a request
with an idempotency key. Each begins with a mark of its own and determines its fields, so no
two different things are hashed under one value.
-/

namespace ZeroCode.Api

open ZeroCode.Cache ZeroCode.Core ZeroCode.Foundation

/-- What is hashed of a request, given the fields it depends on. -/
def idempotencyPreimage (languageId : ℕ) (source : Bytes) (stdin : Option Bytes) : Bytes :=
  "zerocode/idem/v1\x00".toUTF8.toList ++ toLeBytes 4 languageId ++ toLeBytes 8 source.length ++ source ++
    match stdin with
    | some stdin => 1 :: toLeBytes 8 stdin.length ++ stdin
    | none => [0]

/-- The hash of a request depends on its language, its source and its input only. -/
theorem idempotencyInput_eq (req : SubmissionRequest) :
    idempotencyInput req = idempotencyPreimage req.languageId req.sourceCode req.stdin := rfl

/-- What is hashed of a request, in numbers of the width the program gives them. -/
@[ext]
structure IdempotencyFields where
  languageId : UInt32
  source : Slice
  stdin : Option Slice

/-- The hashed bytes of the fields. -/
def IdempotencyFields.input (fields : IdempotencyFields) : Bytes :=
  idempotencyPreimage fields.languageId.toNat fields.source.1 (fields.stdin.map Subtype.val)

/-- The hashed bytes as a mark and one field behind another. -/
theorem IdempotencyFields.input_eq (fields : IdempotencyFields) :
    fields.input = "zerocode/idem/v1\x00".toUTF8.toList ++ (toLeBytes 4 fields.languageId.toNat ++
      ((toLeBytes 8 fields.source.1.length ++ fields.source.1) ++
        encodeOption 1 0 (fun bytes : Slice => toLeBytes 8 bytes.1.length ++ bytes.1) fields.stdin)) := by
  obtain ⟨id, source, stdin⟩ := fields
  cases stdin <;> simp only [IdempotencyFields.input, idempotencyPreimage, List.append_assoc, Option.map_some,
    Option.map_none, List.cons_append, encodeOption]

/-- The hashed bytes determine what is hashed of a request; an empty input is not an absent one. -/
theorem IdempotencyFields.input_injective : Function.Injective IdempotencyFields.input := by
  intro a b h
  rw [a.input_eq, b.input_eq, List.append_right_inj] at h
  obtain ⟨hid, h⟩ := framed_uint32 _ _ _ _ h
  obtain ⟨hsource, h⟩ := framed_slice _ _ _ _ h
  have hstdin := framed_slice.option (by decide : (1 : UInt8) ≠ 0)
  exact IdempotencyFields.ext hid hsource (hstdin.injective h)

/-- Each of the three kinds of hashed bytes determines its fields, and no two kinds have bytes in common. -/
theorem hash_preimages_unambiguous :
    Function.Injective ResultKeyFields.input ∧ Function.Injective CompileKeyFields.input ∧
      Function.Injective IdempotencyFields.input ∧
        Disjoint (Set.range ResultKeyFields.input) (Set.range CompileKeyFields.input) ∧
          Disjoint (Set.range ResultKeyFields.input) (Set.range IdempotencyFields.input) ∧
            Disjoint (Set.range CompileKeyFields.input) (Set.range IdempotencyFields.input) := by
  have apart {A B : Type} {f : A → Bytes} {g : B → Bytes} (h : ∀ a b, f a ≠ g b) :
      Disjoint (Set.range f) (Set.range g) := by
    refine Set.disjoint_left.mpr ?_
    rintro _ ⟨a, rfl⟩ ⟨b, hb⟩
    exact h a b hb.symm
  -- the marks differ in their tenth byte
  have hresult : "zerocode/result/v1\x00".toUTF8.toList[9]? = some 114 := by decide +kernel
  have hcompile : "zerocode/compile/v1\x00".toUTF8.toList[9]? = some 99 := by decide +kernel
  have hidem : "zerocode/idem/v1\x00".toUTF8.toList[9]? = some 105 := by decide +kernel
  refine ⟨ResultKeyFields.input_injective, CompileKeyFields.input_injective, IdempotencyFields.input_injective,
    apart fun a b => ?_, apart fun a b => ?_, apart fun a b => ?_⟩
  · rw [ResultKeyFields.input_eq, CompileKeyFields.input_eq]
    exact append_ne_of_getElem? hresult hcompile (by decide) _ _
  · rw [ResultKeyFields.input_eq, IdempotencyFields.input_eq]
    exact append_ne_of_getElem? hresult hidem (by decide) _ _
  · rw [CompileKeyFields.input_eq, IdempotencyFields.input_eq]
    exact append_ne_of_getElem? hcompile hidem (by decide) _ _

end ZeroCode.Api
