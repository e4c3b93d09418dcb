import Mathlib.Data.List.Forall2

/-!
# Inverting fallible computations

A successful sequence of fallible steps is the success of each of them.
-/

namespace ZeroCode.Foundation

universe u

variable {E A B : Type u}

/-- A sequence succeeds when its first part does and the rest does on its result. -/
theorem bind_eq_ok_iff {x : Except E A} {f : A → Except E B} {b : B} :
    (x >>= f) = .ok b ↔ ∃ a, x = .ok a ∧ f a = .ok b := by
  cases x with
  | error e => exact ⟨nofun, nofun⟩
  | ok a => exact ⟨fun h => ⟨a, rfl, h⟩, fun ⟨_, ha, h⟩ => Except.ok.inj ha ▸ h⟩

/-- A mapped result is a success when the result is. -/
theorem map_eq_ok_iff {x : Except E A} {f : A → B} {b : B} : x.map f = .ok b ↔ ∃ a, x = .ok a ∧ f a = b := by
  cases x with
  | error e => exact ⟨nofun, nofun⟩
  | ok a => exact ⟨fun h => ⟨a, rfl, Except.ok.inj h⟩, fun ⟨_, ha, h⟩ => Except.ok.inj ha ▸ congrArg Except.ok h⟩

/-- A loop over a list succeeds when every iteration does. -/
theorem forM_eq_ok_iff {f : A → Except E PUnit.{u + 1}} {values : List A} :
    forM values f = .ok ⟨⟩ ↔ ∀ a ∈ values, f a = .ok ⟨⟩ := by
  induction values with
  | nil => simp [pure, Except.pure]
  | cons a rest ih =>
    rw [List.forM_cons, bind_eq_ok_iff, List.forall_mem_cons, ← ih]
    constructor
    · intro hparts
      obtain ⟨_, ha, hrest⟩ := hparts
      exact ⟨ha, hrest⟩
    · intro hparts
      obtain ⟨ha, hrest⟩ := hparts
      exact ⟨_, ha, hrest⟩

/-- A mapping over a list succeeds when it does at every entry, with the results in order. -/
theorem mapM_eq_ok_iff {f : A → Except E B} {values : List A} {results : List B} :
    values.mapM f = .ok results ↔ List.Forall₂ (fun a b => f a = .ok b) values results := by
  induction values generalizing results with
  | nil =>
    rw [List.mapM_nil, List.forall₂_nil_left_iff]
    exact ⟨fun h => (Except.ok.inj h).symm, fun h => h ▸ rfl⟩
  | cons a rest ih =>
    rw [List.mapM_cons, bind_eq_ok_iff]
    constructor
    · rintro ⟨b, ha, hrest⟩
      obtain ⟨bs, hbs, hresults⟩ := bind_eq_ok_iff.mp hrest
      cases hresults
      exact .cons ha (ih.mp hbs)
    · rintro ⟨⟩
      rename_i b bs ha hrest
      exact ⟨b, ha, bind_eq_ok_iff.mpr ⟨bs, ih.mpr hrest, rfl⟩⟩

/-- Every entry of a list has its partner in a list that is related to it entry by entry. -/
theorem exists_of_forall₂ {A B : Type*} {R : A → B → Prop} {values : List A} {results : List B}
    (h : List.Forall₂ R values results) {a : A} (ha : a ∈ values) : ∃ b ∈ results, R a b := by
  induction h with
  | nil => cases ha
  | @cons first b rest others hfirst _ ih =>
    rcases List.mem_cons.mp ha with rfl | hrest
    · exact ⟨b, List.mem_cons_self, hfirst⟩
    · obtain ⟨partner, hpartner, hrelated⟩ := ih hrest
      exact ⟨partner, List.mem_cons_of_mem b hpartner, hrelated⟩

/-- Renaming an error does not change a success. -/
theorem mapError_eq_ok_iff {E' : Type u} {x : Except E A} {rename : E → E'} {a : A} :
    x.mapError rename = .ok a ↔ x = .ok a := by
  cases x with
  | error e => exact ⟨nofun, nofun⟩
  | ok a' => exact ⟨fun h => by cases h; rfl, fun h => by cases h; rfl⟩

end ZeroCode.Foundation
