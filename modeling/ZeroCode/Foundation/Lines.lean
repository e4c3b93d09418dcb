import Mathlib.Data.List.DropRight

/-!
# Cutting and trimming lists

A list is cut at a separator and joined again, and what satisfies a predicate is dropped from
its end. The pieces of a cut hold no separator, pieces that are joined with a separator behind
every one are found again, and dropping from the two ends commutes.
-/

namespace ZeroCode.Foundation

open List

section Pieces

variable {α : Type*} {p : α → Bool}

/-- A piece of a cut has letters of the list only, and none at which it was cut. -/
theorem mem_splitOnP {xs piece : List α} (h : piece ∈ xs.splitOnP p) : ∀ a ∈ piece, a ∈ xs ∧ p a = false := by
  induction xs generalizing piece with
  | nil =>
    have hpiece : piece = [] := by simpa using h
    simp [hpiece]
  | cons x xs ih =>
    intro a ha
    obtain ⟨first, pieces, hcut⟩ := exists_cons_of_ne_nil (splitOnP_ne_nil p xs)
    rw [splitOnP_cons_eq_if_modifyHead, hcut] at h
    rw [hcut] at ih
    by_cases hx : p x
    · rw [if_pos hx] at h
      rcases mem_cons.mp h with rfl | hmem
      · cases ha
      · exact (ih hmem a ha).imp_left (mem_cons_of_mem x)
    · rw [if_neg hx, modifyHead_cons] at h
      rcases mem_cons.mp h with rfl | hmem
      · rcases mem_cons.mp ha with rfl | hfirst
        · exact ⟨mem_cons_self, by simpa using hx⟩
        · exact (ih mem_cons_self a hfirst).imp_left (mem_cons_of_mem x)
      · exact (ih (mem_cons_of_mem _ hmem) a ha).imp_left (mem_cons_of_mem x)

/-- The pieces in one are the list without what it was cut at. -/
theorem flatten_splitOnP (xs : List α) : (xs.splitOnP p).flatten = xs.filter fun x => !p x := by
  induction xs with
  | nil => rfl
  | cons x xs ih =>
    obtain ⟨first, pieces, hcut⟩ := exists_cons_of_ne_nil (splitOnP_ne_nil p xs)
    rw [hcut] at ih
    rw [splitOnP_cons_eq_if_modifyHead, hcut]
    by_cases hx : p x
    · rw [if_pos hx, flatten_cons, nil_append, ih, filter_cons_of_neg (by simpa using hx)]
    · rw [if_neg hx, modifyHead_cons, flatten_cons, cons_append, ← flatten_cons, ih,
        filter_cons_of_pos (by simpa using hx)]

/-- A piece of a cut at a letter does not hold it. -/
theorem mem_splitOn [DecidableEq α] {a : α} {xs piece : List α} (h : piece ∈ xs.splitOn a) :
    a ∉ piece ∧ ∀ b ∈ piece, b ∈ xs := by
  rw [splitOn_eq_splitOnP] at h
  have hpiece := mem_splitOnP h
  exact ⟨fun ha => by simpa using (hpiece a ha).2, fun b hb => (hpiece b hb).1⟩

/-- Pieces that are joined and ended by a separator are found again, and an empty piece behind them. -/
theorem splitOn_intercalate_concat [DecidableEq α] {a : α} {pieces : List (List α)} (hne : pieces ≠ [])
    (h : ∀ piece ∈ pieces, a ∉ piece) : ([a].intercalate pieces ++ [a]).splitOn a = pieces ++ [[]] := by
  rw [splitOn_append_cons_self, splitOn_intercalate a h hne]
  rfl

/-- Joining and ending by a separator puts one behind every piece. -/
theorem intercalate_concat {pieces : List (List α)} (hne : pieces ≠ []) (a : α) :
    [a].intercalate pieces ++ [a] = pieces.flatMap fun piece => piece ++ [a] := by
  induction pieces with
  | nil => exact absurd rfl hne
  | cons piece pieces ih =>
    by_cases hlast : pieces = []
    · rw [hlast, intercalate_singleton, flatMap_cons, flatMap_nil, append_nil]
    · rw [intercalate_cons_of_ne_nil hlast, append_assoc, ih hlast, flatMap_cons]

/-- A joined list holds letters of the pieces and of the separator only. -/
theorem mem_intercalate {a : α} {separator : List α} {pieces : List (List α)}
    (h : a ∈ separator.intercalate pieces) : a ∈ separator ∨ ∃ piece ∈ pieces, a ∈ piece := by
  induction pieces with
  | nil => simp at h
  | cons piece pieces ih =>
    by_cases hne : pieces = []
    · rw [hne, intercalate_singleton] at h
      exact Or.inr ⟨piece, mem_cons_self, h⟩
    · rw [intercalate_cons_of_ne_nil hne, mem_append, mem_append] at h
      rcases h with (hpiece | hseparator) | hrest
      · exact Or.inr ⟨piece, mem_cons_self, hpiece⟩
      · exact Or.inl hseparator
      · refine (ih hrest).imp_right ?_
        rintro ⟨other, hother, ha⟩
        exact ⟨other, mem_cons_of_mem piece hother, ha⟩

/-- A joined list ends in its last piece. -/
theorem suffix_intercalate_concat (separator : List α) (pieces : List (List α)) (last : List α) :
    last <:+ separator.intercalate (pieces ++ [last]) := by
  induction pieces with
  | nil => exact ⟨[], by rw [nil_append, nil_append, intercalate_singleton]⟩
  | cons piece pieces ih =>
    rw [cons_append, intercalate_cons_of_ne_nil (by simp)]
    exact ih.trans (suffix_append _ _)

end Pieces

section Ends

variable {α : Type*} {p : α → Bool}

/-- Dropping from the end, from the front of the list. -/
theorem rdropWhile_cons (x : α) (xs : List α) :
    (x :: xs).rdropWhile p = if p x ∧ ∀ y ∈ xs, p y then [] else x :: xs.rdropWhile p := by
  induction xs using reverseRecOn with
  | nil => by_cases hx : p x <;> simp [rdropWhile_singleton, hx]
  | append_singleton xs y ih =>
    rw [← cons_append]
    by_cases hy : p y
    · have hall : (∀ z ∈ xs ++ [y], p z) ↔ ∀ z ∈ xs, p z := by simp [or_imp, forall_and, hy]
      simp only [rdropWhile_concat_pos p _ y hy, ih, hall]
    · have hall : ¬ (p x ∧ ∀ z ∈ xs ++ [y], p z) := fun h => hy (h.2 y (by simp))
      rw [rdropWhile_concat_neg p _ y hy, rdropWhile_concat_neg p _ y hy, if_neg hall, cons_append]

/-- Dropping from the end and dropping from the front commute. -/
theorem dropWhile_rdropWhile (xs : List α) :
    (xs.rdropWhile p).dropWhile p = (xs.dropWhile p).rdropWhile p := by
  induction xs with
  | nil => rfl
  | cons x xs ih =>
    by_cases hx : p x
    · rw [rdropWhile_cons, dropWhile_cons_of_pos hx]
      split_ifs with hall
      · have hxs : xs.dropWhile p = [] := dropWhile_eq_nil_iff.mpr hall.2
        rw [hxs, rdropWhile_nil, dropWhile_nil]
      · rw [dropWhile_cons_of_pos hx, ih]
    · rw [dropWhile_cons_of_neg hx, rdropWhile_cons, if_neg (fun h => hx h.1), dropWhile_cons_of_neg hx]

/-- The front of a prefix is a prefix of the front. -/
theorem takeWhile_prefix_takeWhile {xs ys : List α} (h : xs <+: ys) : xs.takeWhile p <+: ys.takeWhile p := by
  obtain ⟨rest, rfl⟩ := h
  rw [takeWhile_append]
  split_ifs
  · exact ( takeWhile_prefix p).trans (prefix_append xs _)
  · exact prefix_rfl

/-- Behind what is dropped at the front nothing more is taken. -/
theorem takeWhile_dropWhile (xs : List α) : (xs.dropWhile p).takeWhile p = [] := by
  induction xs with
  | nil => rfl
  | cons x xs ih =>
    by_cases hx : p x
    · rwa [dropWhile_cons_of_pos hx]
    · rw [dropWhile_cons_of_neg hx, takeWhile_cons_of_neg hx]

/-- Nothing else is lost at the end. -/
theorem filter_rdropWhile (xs : List α) : (xs.rdropWhile p).filter (fun x => !p x) = xs.filter fun x => !p x := by
  have hdropped : (xs.rtakeWhile p).filter (fun x => !p x) = [] := by
    rw [filter_eq_nil_iff]
    intro x hx
    simp [mem_rtakeWhile_imp hx]
  conv_rhs => rw [← @rdropWhile_append_rtakeWhile _ p xs, filter_append, hdropped, append_nil]

end Ends

end ZeroCode.Foundation
