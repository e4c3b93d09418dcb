import Mathlib.Data.List.Basic
import Mathlib.Order.Bounds.Basic

/-!
# Longest common subsequences

The length of a longest common subsequence of two lists by recursion on their fronts, and that
it is one: some common subsequence has it, and none is longer. The recursion at two positions
is what a table of it is filled by.
-/

namespace ZeroCode.Foundation

open List

variable {α : Type*}

/-- The lengths of the common subsequences of two lists. -/
def commonLengths (xs ys : List α) : Set ℕ := {n | ∃ common, common <+ xs ∧ common <+ ys ∧ common.length = n}

variable [DecidableEq α]

/-- The length of a longest common subsequence. -/
def lcsLength : List α → List α → ℕ
  | [], _ => 0
  | _ :: _, [] => 0
  | x :: xs, y :: ys =>
    if x = y then lcsLength xs ys + 1 else max (lcsLength xs (y :: ys)) (lcsLength (x :: xs) ys)
termination_by xs ys => xs.length + ys.length

/-- With the empty list nothing is common. -/
@[simp] theorem lcsLength_nil_left (ys : List α) : lcsLength [] ys = 0 := by rw [lcsLength]

/-- With the empty list nothing is common. -/
@[simp] theorem lcsLength_nil_right (xs : List α) : lcsLength xs [] = 0 := by
  cases xs <;> rw [lcsLength]

/-- The length is that of a common subsequence. -/
theorem lcsLength_mem (xs ys : List α) : lcsLength xs ys ∈ commonLengths xs ys := by
  fun_induction lcsLength xs ys with
  | case1 ys => exact ⟨[], nil_sublist _, nil_sublist _, rfl⟩
  | case2 x xs => exact ⟨[], nil_sublist _, nil_sublist _, rfl⟩
  | case3 xs x ys ih =>
    obtain ⟨common, hxs, hys, hlength⟩ := ih
    exact ⟨x :: common, hxs.cons_cons x, hys.cons_cons x, by rw [length_cons, hlength]⟩
  | case4 x xs y ys hne ihx ihy =>
    rcases Nat.le_total (lcsLength (x :: xs) ys) (lcsLength xs (y :: ys)) with hleft | hright
    · obtain ⟨common, hxs, hys, hlength⟩ := ihx
      exact ⟨common, hxs.cons x, hys, by rw [max_eq_left hleft, hlength]⟩
    · obtain ⟨common, hxs, hys, hlength⟩ := ihy
      exact ⟨common, hxs, hys.cons y, by rw [max_eq_right hright, hlength]⟩

/-- No common subsequence is longer. -/
theorem length_le_lcsLength {common xs ys : List α} (hxs : common <+ xs) (hys : common <+ ys) :
    common.length ≤ lcsLength xs ys := by
  fun_induction lcsLength xs ys generalizing common with
  | case1 ys => rw [sublist_nil.mp hxs, length_nil]
  | case2 x xs => rw [sublist_nil.mp hys, length_nil]
  | case3 xs x ys ih =>
    have htail := ih hxs.tail hys.tail
    rw [length_tail] at htail
    omega
  | case4 x xs y ys hne ihx ihy =>
    -- The front of a common subsequence is at most one of the two fronts.
    rcases sublist_cons_iff.mp hxs with hskip | ⟨rest, rfl, hrest⟩
    · exact (ihx hskip hys).trans (le_max_left _ _)
    · rcases sublist_cons_iff.mp hys with hskip | ⟨other, hsame, hother⟩
      · exact (ihy hxs hskip).trans (le_max_right _ _)
      · exact absurd (cons.inj hsame).1 hne

/-- The length is that of a longest common subsequence. -/
theorem isGreatest_lcsLength (xs ys : List α) : IsGreatest (commonLengths xs ys) (lcsLength xs ys) := by
  refine ⟨lcsLength_mem xs ys, ?_⟩
  rintro n ⟨common, hxs, hys, rfl⟩
  exact length_le_lcsLength hxs hys

/-- The length at two positions by the lengths behind them. -/
theorem lcsLength_drop {xs ys : List α} {i j : ℕ} (hi : i < xs.length) (hj : j < ys.length) :
    lcsLength (xs.drop i) (ys.drop j) =
      if xs[i] = ys[j] then lcsLength (xs.drop (i + 1)) (ys.drop (j + 1)) + 1
      else max (lcsLength (xs.drop (i + 1)) (ys.drop j)) (lcsLength (xs.drop i) (ys.drop (j + 1))) := by
  rw [drop_eq_getElem_cons hi, drop_eq_getElem_cons hj, lcsLength]

end ZeroCode.Foundation
