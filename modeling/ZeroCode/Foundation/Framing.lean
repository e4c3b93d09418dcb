import Mathlib.Data.List.Basic
import Mathlib.Logic.Function.Basic

/-!
# Encodings that end by themselves

An encoding is framed when it can be told from whatever follows it. Encodings of one length
are framed, and so is a string behind its length; framed encodings may follow each other,
and the last field of a record needs no frame.
-/

namespace ZeroCode.Foundation

variable {A B S : Type*}

/-- The encoded value and the rest are determined by the two in a row. -/
def Framed (f : A → List S) : Prop := ∀ a b s t, f a ++ s = f b ++ t → a = b ∧ s = t

/-- A framed encoding is injective. -/
theorem Framed.injective {f : A → List S} (hf : Framed f) : Function.Injective f := by
  intro a b h
  exact (hf a b [] [] (by rw [h])).1

/-- Injective encodings of one length are framed. -/
theorem framed_of_length {f : A → List S} (width : ℕ) (hlength : ∀ a, (f a).length = width)
    (hinjective : Function.Injective f) : Framed f := by
  intro a b s t h
  obtain ⟨hsame, hrest⟩ := List.append_inj h ((hlength a).trans (hlength b).symm)
  exact ⟨hinjective hsame, hrest⟩

/-- One framed encoding behind another. -/
theorem Framed.append {f : A → List S} {g : B → List S} (hf : Framed f) (hg : Framed g) :
    Framed fun p : A × B => f p.1 ++ g p.2 := by
  rintro ⟨a, b⟩ ⟨a', b'⟩ s t h
  rw [List.append_assoc, List.append_assoc] at h
  obtain ⟨hfirst, hrest⟩ := hf _ _ _ _ h
  obtain ⟨hsecond, hend⟩ := hg _ _ _ _ hrest
  exact ⟨Prod.ext hfirst hsecond, hend⟩

/-- A string behind its length is framed, as long as lengths have framed encodings. -/
theorem framed_lengthPrefixed {bound : ℕ} {encodeLength : ℕ → List S}
    (hframed : Framed fun n : {n : ℕ // n < bound} => encodeLength n.1) :
    Framed fun l : {l : List S // l.length < bound} => encodeLength l.1.length ++ l.1 := by
  rintro ⟨l, hl⟩ ⟨l', hl'⟩ s t h
  rw [List.append_assoc, List.append_assoc] at h
  obtain ⟨hlength, hrest⟩ := hframed ⟨l.length, hl⟩ ⟨l'.length, hl'⟩ _ _ h
  obtain ⟨hsame, hend⟩ := List.append_inj hrest (Subtype.mk.inj hlength)
  exact ⟨Subtype.ext hsame, hend⟩

/-- An optional value behind a symbol that tells whether it is there. -/
def encodeOption (present absent : S) (f : A → List S) : Option A → List S
  | some a => present :: f a
  | none => [absent]

/-- An optional value behind such a symbol is framed. -/
theorem Framed.option {f : A → List S} (hf : Framed f) {present absent : S} (hne : present ≠ absent) :
    Framed (encodeOption present absent f) := by
  intro a b s t h
  cases a with
  | none =>
    cases b with
    | none => exact ⟨rfl, (List.cons.inj h).2⟩
    | some b => exact absurd (List.cons.inj h).1.symm hne
  | some a =>
    cases b with
    | none => exact absurd (List.cons.inj h).1 hne
    | some b =>
      obtain ⟨hsame, hrest⟩ := hf _ _ _ _ (List.cons.inj h).2
      exact ⟨congrArg some hsame, hrest⟩

/-- Strings whose beginnings differ at some place are different. -/
theorem append_ne_of_getElem? {p q : List S} {i : ℕ} {x y : S} (hp : p[i]? = some x) (hq : q[i]? = some y)
    (hne : x ≠ y) (s t : List S) : p ++ s ≠ q ++ t := by
  intro h
  have hplt : i < p.length := (List.getElem?_eq_some_iff.mp hp).1
  have hqlt : i < q.length := (List.getElem?_eq_some_iff.mp hq).1
  have hsame := congrArg (·[i]?) h
  simp only [List.getElem?_append_left hplt, List.getElem?_append_left hqlt, hp, hq] at hsame
  exact hne (Option.some.inj hsame)

end ZeroCode.Foundation
