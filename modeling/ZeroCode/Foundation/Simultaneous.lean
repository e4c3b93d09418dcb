import Mathlib.Data.List.Infix
import ZeroCode.Foundation.Template

/-!
# Filling all placeholders at once

A text with placeholders can be filled in one pass: at each position the placeholder that
starts there is replaced, and the search goes on behind it. Replacing the placeholders one
after the other does the same, in any order, if no two of them and no value and a
placeholder can overlap. Then no placeholder is left in the result either.
-/

namespace ZeroCode.Foundation

variable {α κ : Type*}

/-- Placeholders that start with a symbol of their own, are not the start of each other, and run into no value: behind
the start, a placeholder differs from a value where they would overlap. -/
structure Separate (pattern values : κ → List α) : Prop where
  nonempty : ∀ k, pattern k ≠ []
  heads : ∀ j k, ∀ a ∈ (pattern j).head?, a ∉ (pattern k).tail ∧ a ∉ values k
  unique : ∀ j k, pattern j <+: pattern k → j = k
  clash : ∀ j k tail, tail <:+ pattern k → tail ≠ [] → ¬ tail <+: values j ∧ ¬ values j <+: tail

/-- No placeholder starts with a symbol of a value or of the rest of a placeholder. -/
theorem Separate.not_prefix_of_mem {pattern values : κ → List α} (h : Separate pattern values) {j k : κ} {a : α}
    (ha : a ∈ values k ∨ a ∈ (pattern k).tail) (rest : List α) : ¬ pattern j <+: a :: rest := by
  obtain ⟨b, tail, hpattern⟩ := List.exists_cons_of_ne_nil (h.nonempty j)
  intro hprefix
  rw [hpattern] at hprefix
  obtain ⟨rfl, _⟩ := List.cons_prefix_cons.mp hprefix
  obtain ⟨htail, hvalue⟩ := h.heads j k b (by rw [hpattern, List.head?_cons, Option.mem_some_iff])
  exact ha.elim hvalue htail

/-- Induction along the pass: the text is over, starts with a placeholder, or starts with a symbol that is kept. -/
theorem Separate.fill_induction {pattern values : κ → List α} (h : Separate pattern values) (keys : List κ)
    {motive : List α → Prop} (nil : motive [])
    (hit : ∀ k ∈ keys, ∀ rest, motive rest → motive (pattern k ++ rest))
    (miss : ∀ a rest, (∀ k ∈ keys, ¬ pattern k <+: a :: rest) → motive rest → motive (a :: rest)) (xs : List α) :
    motive xs := by
  refine scan_induction (fun found => ∃ k ∈ keys, pattern k = found) ?_ nil ?_ (fun a rest hmiss => ?_) xs
  · rintro _ ⟨k, _, rfl⟩
    exact h.nonempty k
  · rintro _ ⟨k, hk, rfl⟩
    exact hit k hk
  · exact miss a rest fun k hk => hmiss _ ⟨k, hk, rfl⟩

variable [DecidableEq α]

/-- Fill the placeholders in one pass, after skipping some symbols. -/
def fill (pattern values : κ → List α) (keys : List κ) : ℕ → List α → List α
  | _, [] => []
  | skip + 1, _ :: rest => fill pattern values keys skip rest
  | 0, a :: rest =>
    match keys.find? fun k => (pattern k).isPrefixOf (a :: rest) with
    | some k => values k ++ fill pattern values keys ((pattern k).length - 1) rest
    | none => a :: fill pattern values keys 0 rest

variable {pattern values : κ → List α} {keys : List κ}

/-- Skipped symbols are dropped. -/
theorem fill_skip (skip : ℕ) (xs : List α) :
    fill pattern values keys skip xs = fill pattern values keys 0 (xs.drop skip) := by
  induction skip generalizing xs with
  | zero => rfl
  | succ skip ih =>
    cases xs with
    | nil => simp [fill]
    | cons a rest => exact ih rest

/-- A symbol at which no placeholder starts is kept. -/
theorem fill_miss {a : α} {rest : List α} (h : ∀ k ∈ keys, ¬ pattern k <+: a :: rest) :
    fill pattern values keys 0 (a :: rest) = a :: fill pattern values keys 0 rest := by
  have hnone : (keys.find? fun k => (pattern k).isPrefixOf (a :: rest)) = none :=
    List.find?_eq_none.mpr fun k hk hprefix => h k hk (List.isPrefixOf_iff_prefix.mp hprefix)
  rw [fill, hnone]

/-- A placeholder is filled, and the search goes on behind it. -/
theorem Separate.fill_hit (h : Separate pattern values) {k : κ} (hk : k ∈ keys) (rest : List α) :
    fill pattern values keys 0 (pattern k ++ rest) = values k ++ fill pattern values keys 0 rest := by
  obtain ⟨a, tail, hpattern⟩ := List.exists_cons_of_ne_nil (h.nonempty k)
  have hfind : (keys.find? fun j => (pattern j).isPrefixOf (a :: (tail ++ rest))) = some k := by
    have hself : (pattern k).isPrefixOf (a :: (tail ++ rest)) = true :=
      List.isPrefixOf_iff_prefix.mpr ⟨rest, by rw [hpattern, List.cons_append]⟩
    have hfound : ∃ j ∈ keys, (pattern j).isPrefixOf (a :: (tail ++ rest)) = true := ⟨k, hk, hself⟩
    obtain ⟨j, hj⟩ := Option.isSome_iff_exists.mp (List.find?_isSome.mpr hfound)
    have hprefix : (pattern j).isPrefixOf (a :: (tail ++ rest)) = true :=
      @List.find?_some _ (fun i => (pattern i).isPrefixOf (a :: (tail ++ rest))) j keys hj
    have hother : pattern j <+: a :: (tail ++ rest) := List.isPrefixOf_iff_prefix.mp hprefix
    rw [hj]
    rcases List.prefix_or_prefix_of_prefix hother (List.isPrefixOf_iff_prefix.mp hself) with hle | hge
    · rw [h.unique j k hle]
    · rw [h.unique k j hge]
  rw [hpattern, List.cons_append, fill, hfind]
  simp only
  rw [fill_skip, hpattern, List.length_cons, Nat.add_sub_cancel, List.drop_left]

/-- The end of a placeholder that starts a filled text starts the text itself. -/
theorem Separate.prefix_of_prefix_fill (h : Separate pattern values) {k : κ} {tail xs : List α}
    (htail : tail <:+ pattern k) (hstarts : tail <+: fill pattern values keys 0 xs) : tail <+: xs := by
  induction xs using h.fill_induction keys generalizing tail with
  | nil => exact hstarts
  | hit j hj rest _ =>
    rw [h.fill_hit hj] at hstarts
    rcases eq_or_ne tail [] with rfl | hne
    · exact List.nil_prefix
    · obtain ⟨hshort, hlong⟩ := h.clash j k tail htail hne
      rcases List.prefix_or_prefix_of_prefix hstarts (List.prefix_append _ _) with hle | hge
      · exact absurd hle hshort
      · exact absurd hge hlong
  | miss a rest hmiss ih =>
    rw [fill_miss hmiss] at hstarts
    cases tail with
    | nil => exact List.nil_prefix
    | cons b tail =>
      obtain ⟨rfl, hrest⟩ := List.cons_prefix_cons.mp hstarts
      exact List.cons_prefix_cons.mpr ⟨rfl, ih ((List.suffix_cons b tail).trans htail) hrest⟩

/-- Symbols at which no placeholder starts are kept. -/
theorem fill_append {kept : List α} (hkept : ∀ a ∈ kept, ∀ rest, ∀ k ∈ keys, ¬ pattern k <+: a :: rest) (xs : List α) :
    fill pattern values keys 0 (kept ++ xs) = kept ++ fill pattern values keys 0 xs := by
  induction kept with
  | nil => rfl
  | cons a kept ih =>
    rw [List.cons_append, fill_miss (hkept a List.mem_cons_self _), List.cons_append,
      ih fun b hb => hkept b (List.mem_cons_of_mem a hb)]

/-- Replacing one placeholder is a pass for it alone. -/
theorem replaceFrom_eq_fill (k : κ) (skip : ℕ) (xs : List α) :
    replaceFrom (pattern k) (values k) skip xs = fill pattern values [k] skip xs := by
  induction xs generalizing skip with
  | nil => cases skip <;> rfl
  | cons a rest ih =>
    cases skip with
    | succ skip => exact ih skip
    | zero =>
      rw [replaceFrom, fill, List.find?_singleton, ih, ih]
      split <;> rfl

/-- A pass for one more placeholder behind a pass for others is one pass for all of them. -/
theorem Separate.fill_fill (h : Separate pattern values) (keys : List κ) (k : κ) (xs : List α) :
    fill pattern values [k] 0 (fill pattern values keys 0 xs) = fill pattern values (keys ++ [k]) 0 xs := by
  induction xs using h.fill_induction (keys ++ [k]) with
  | nil => rfl
  | hit j hj rest ih =>
    rw [h.fill_hit hj]
    by_cases hkeys : j ∈ keys
    · rw [h.fill_hit hkeys, fill_append, ih]
      exact fun a ha rest i _ => h.not_prefix_of_mem (Or.inl ha) rest
    · obtain rfl : j = k := by simpa [hkeys] using hj
      obtain ⟨a, tail, hpattern⟩ := List.exists_cons_of_ne_nil (h.nonempty j)
      have hother : ∀ i ∈ keys, ¬ pattern i <+: a :: (tail ++ rest) := by
        intro i hi hprefix
        have hself : pattern j <+: a :: (tail ++ rest) := ⟨rest, by rw [hpattern, List.cons_append]⟩
        rcases List.prefix_or_prefix_of_prefix hprefix hself with hle | hge
        · exact hkeys (h.unique i j hle ▸ hi)
        · exact hkeys (h.unique j i hge ▸ hi)
      have hkept : fill pattern values keys 0 (pattern j ++ rest) = pattern j ++ fill pattern values keys 0 rest := by
        rw [hpattern, List.cons_append, fill_miss hother, fill_append, List.cons_append]
        exact fun b hb rest i _ => h.not_prefix_of_mem (Or.inr (by rwa [hpattern, List.tail_cons])) rest
      rw [hkept, h.fill_hit (List.mem_singleton_self j), ih]
  | miss a rest hmiss ih =>
    have hkeys : ∀ j ∈ keys, ¬ pattern j <+: a :: rest := fun j hj => hmiss j (List.mem_append_left _ hj)
    have hlast : ¬ pattern k <+: a :: fill pattern values keys 0 rest := by
      intro hprefix
      have hstarts : pattern k <+: fill pattern values keys 0 (a :: rest) := by rwa [fill_miss hkeys]
      exact hmiss k (List.mem_append_right _ (List.mem_singleton_self k))
        (h.prefix_of_prefix_fill (List.suffix_refl _) hstarts)
    rw [fill_miss hkeys, fill_miss hmiss, fill_miss (by simpa using hlast), ih]

/-- Replacing the placeholders one after the other is one pass for all of them. -/
theorem Separate.substitute_eq_fill (h : Separate pattern values) (keys : List κ) (xs : List α) :
    substitute pattern values keys xs = fill pattern values keys 0 xs := by
  induction keys using List.reverseRecOn with
  | nil =>
    induction xs with
    | nil => rfl
    | cons a rest ih => exact congrArg (List.cons a) ih
  | append_singleton keys k ih =>
    have hlast : substitute pattern values (keys ++ [k]) xs =
        replaceFrom (pattern k) (values k) 0 (substitute pattern values keys xs) := by
      rw [substitute, List.foldl_append]
      rfl
    rw [hlast, ih, replaceFrom_eq_fill, h.fill_fill]

/-- The order of the placeholders makes no difference. -/
theorem Separate.fill_perm (h : Separate pattern values) {keys keys' : List κ} (hperm : keys.Perm keys') (xs : List α) :
    fill pattern values keys 0 xs = fill pattern values keys' 0 xs := by
  induction xs using h.fill_induction keys with
  | nil => rfl
  | hit k hk rest ih => rw [h.fill_hit hk, h.fill_hit (hperm.mem_iff.mp hk), ih]
  | miss a rest hmiss ih => rw [fill_miss hmiss, fill_miss fun k hk => hmiss k (hperm.mem_iff.mpr hk), ih]

/-- No placeholder that was filled is left. -/
theorem Separate.not_infix_fill (h : Separate pattern values) {k : κ} (hk : k ∈ keys) (xs : List α) :
    ¬ pattern k <:+: fill pattern values keys 0 xs := by
  induction xs using h.fill_induction keys with
  | nil => exact fun hinfix => h.nonempty k (List.eq_nil_of_infix_nil hinfix)
  | hit j hj rest ih =>
    rw [h.fill_hit hj]
    generalize fill pattern values keys 0 rest = filled at ih
    have hvalue : ∀ a ∈ values j, ∀ ys, ¬ pattern k <+: a :: ys := fun a ha ys => h.not_prefix_of_mem (Or.inl ha) ys
    generalize values j = value at hvalue
    induction value with
    | nil => exact ih
    | cons a value ihvalue =>
      rw [List.cons_append, List.infix_cons_iff, not_or]
      exact ⟨hvalue a List.mem_cons_self _, ihvalue fun b hb => hvalue b (List.mem_cons_of_mem a hb)⟩
  | miss a rest hmiss ih =>
    rw [fill_miss hmiss, List.infix_cons_iff, not_or]
    refine ⟨fun hprefix => ?_, ih⟩
    have hstarts : pattern k <+: fill pattern values keys 0 (a :: rest) := by rwa [fill_miss hmiss]
    exact hmiss k hk (h.prefix_of_prefix_fill (List.suffix_refl _) hstarts)

end ZeroCode.Foundation
