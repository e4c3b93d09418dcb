import Mathlib.Algebra.Order.Floor.Semiring
import Mathlib.Algebra.Order.Floor.Ring
import Mathlib.Data.List.GetD
import Mathlib.Data.List.Sort
import Mathlib.Tactic.Linarith
import Mathlib.Tactic.Ring

/-!
# Continuous percentiles

A percentile of some values is found at a position between the first and the last of them in
their order. Between two positions it lies on the line through both values. A higher
percentile is no smaller, and none leaves the range of the values.
-/

namespace ZeroCode.Foundation

variable {K : Type*} [Field K] [LinearOrder K] [IsStrictOrderedRing K] [FloorRing K]

/-- The value at a position of a list. -/
def interpolate (xs : List K) (pos : K) : K :=
  xs.getD ⌊pos⌋₊ 0 + (pos - ⌊pos⌋₊) * (xs.getD ⌈pos⌉₊ 0 - xs.getD ⌊pos⌋₊ 0)

/-- The position of a fraction among some values. -/
def percentilePosition (p : K) (xs : List K) : K := p * ((xs.length - 1 : ℕ) : K)

/-- The percentile of a fraction, if there are any values. -/
def percentileCont (p : K) (xs : List K) : Option K :=
  if xs = [] then none else some (interpolate (xs.mergeSort (· ≤ ·)) (percentilePosition p xs))

section Sorted

variable {xs : List K}

omit [IsStrictOrderedRing K] [FloorRing K] in
/-- In a sorted list later values are no smaller. -/
theorem getD_le_getD (hsorted : xs.Pairwise (· ≤ ·)) {i j : ℕ} (hij : i ≤ j) (hj : j < xs.length) :
    xs.getD i 0 ≤ xs.getD j 0 := by
  rw [List.getD_eq_getElem _ _ (hij.trans_lt hj), List.getD_eq_getElem _ _ hj]
  rcases hij.eq_or_lt with rfl | hlt
  · exact le_rfl
  · exact List.pairwise_iff_getElem.mp hsorted i j _ hj hlt

/-- A value between two positions is between the values there. -/
theorem interpolate_mem (hsorted : xs.Pairwise (· ≤ ·)) {pos : K} (hpos : 0 ≤ pos) (hlast : ⌈pos⌉₊ < xs.length) :
    xs.getD ⌊pos⌋₊ 0 ≤ interpolate xs pos ∧ interpolate xs pos ≤ xs.getD ⌈pos⌉₊ 0 := by
  have hslope := sub_nonneg.mpr (getD_le_getD hsorted (Nat.floor_le_ceil pos) hlast)
  have hlow : 0 ≤ pos - ⌊pos⌋₊ := sub_nonneg.mpr (Nat.floor_le hpos)
  have hhigh : pos - ⌊pos⌋₊ ≤ 1 := by
    have habove := Nat.lt_floor_add_one pos
    linarith
  have hleast := mul_nonneg hlow hslope
  have hmost := mul_le_mul_of_nonneg_right hhigh hslope
  unfold interpolate
  constructor <;> linarith

/-- The value at a later position is no smaller. -/
theorem interpolate_mono (hsorted : xs.Pairwise (· ≤ ·)) {pos pos' : K} (hpos : 0 ≤ pos) (hle : pos ≤ pos')
    (hlast : ⌈pos'⌉₊ < xs.length) : interpolate xs pos ≤ interpolate xs pos' := by
  have hlast' : ⌈pos⌉₊ < xs.length := (Nat.ceil_mono hle).trans_lt hlast
  rcases le_or_gt ⌈pos⌉₊ ⌊pos'⌋₊ with hapart | htogether
  · calc interpolate xs pos
      _ ≤ xs.getD ⌈pos⌉₊ 0 := (interpolate_mem hsorted hpos hlast').2
      _ ≤ xs.getD ⌊pos'⌋₊ 0 := getD_le_getD hsorted hapart ((Nat.floor_le_ceil pos').trans_lt hlast)
      _ ≤ interpolate xs pos' := (interpolate_mem hsorted (hpos.trans hle) hlast).1
  · -- both are between the same two positions, on one line
    have hfloor : ⌊pos⌋₊ = ⌊pos'⌋₊ :=
      le_antisymm (Nat.floor_mono hle) (Nat.le_floor (Nat.lt_ceil.mp htogether).le)
    have hceil : ⌈pos⌉₊ = ⌈pos'⌉₊ :=
      le_antisymm (Nat.ceil_mono hle) ((Nat.ceil_le_floor_add_one pos').trans htogether)
    have hslope := sub_nonneg.mpr (getD_le_getD hsorted (Nat.floor_le_ceil pos') hlast)
    have hrise := mul_le_mul_of_nonneg_right (sub_le_sub_right hle (⌊pos'⌋₊ : K)) hslope
    unfold interpolate
    rw [hfloor, hceil]
    linarith

end Sorted

section Percentile

variable {xs : List K} {p p' v v' : K}

omit [Field K] [IsStrictOrderedRing K] [FloorRing K] in
/-- The values in their order. -/
theorem pairwise_mergeSort (xs : List K) : (xs.mergeSort (· ≤ ·)).Pairwise (· ≤ ·) := by
  have hsorted := @List.pairwise_mergeSort K (fun a b => decide (a ≤ b))
    (fun a b c hab hbc => by simpa using le_trans (by simpa using hab) (by simpa using hbc))
    (fun a b => by simpa using le_total a b) xs
  exact hsorted.imp fun h => by simpa using h

omit [IsStrictOrderedRing K] in
/-- There is a percentile exactly if there are values. -/
theorem isSome_percentileCont : (percentileCont p xs).isSome = true ↔ xs ≠ [] := by
  unfold percentileCont
  split <;> simp_all

/-- The position of a fraction is one between the first and the last value. -/
theorem percentilePosition_bounds (hp : 0 ≤ p) (hp1 : p ≤ 1) (hne : xs ≠ []) :
    0 ≤ percentilePosition p xs ∧ ⌈percentilePosition p xs⌉₊ < xs.length := by
  have hpos : 0 < xs.length := List.length_pos_iff.mpr hne
  have hlast : percentilePosition p xs ≤ ((xs.length - 1 : ℕ) : K) := mul_le_of_le_one_left (Nat.cast_nonneg _) hp1
  have hceil := Nat.ceil_le.mpr hlast
  exact ⟨mul_nonneg hp (Nat.cast_nonneg _), by omega⟩

/-- A higher percentile is no smaller. -/
theorem percentileCont_mono (hp : 0 ≤ p) (hle : p ≤ p') (hp1 : p' ≤ 1) (h : percentileCont p xs = some v)
    (h' : percentileCont p' xs = some v') : v ≤ v' := by
  have hne : xs ≠ [] := isSome_percentileCont.mp (Option.isSome_of_eq_some h)
  rw [percentileCont, if_neg hne] at h h'
  obtain rfl := Option.some.inj h
  obtain rfl := Option.some.inj h'
  refine interpolate_mono (pairwise_mergeSort xs) (percentilePosition_bounds hp (hle.trans hp1) hne).1
    (mul_le_mul_of_nonneg_right hle (Nat.cast_nonneg _)) ?_
  rw [List.length_mergeSort]
  exact (percentilePosition_bounds (hp.trans hle) hp1 hne).2

/-- A percentile is between two of the values. -/
theorem percentileCont_between (hp : 0 ≤ p) (hp1 : p ≤ 1) (h : percentileCont p xs = some v) :
    ∃ a ∈ xs, ∃ b ∈ xs, a ≤ v ∧ v ≤ b := by
  have hne : xs ≠ [] := isSome_percentileCont.mp (Option.isSome_of_eq_some h)
  obtain ⟨hpos, hlast⟩ := percentilePosition_bounds hp hp1 hne
  rw [percentileCont, if_neg hne] at h
  obtain rfl := Option.some.inj h
  have hlast' : ⌈percentilePosition p xs⌉₊ < (xs.mergeSort (· ≤ ·)).length := by rwa [List.length_mergeSort]
  have hmem {i : ℕ} (hi : i < (xs.mergeSort (· ≤ ·)).length) : (xs.mergeSort (· ≤ ·)).getD i 0 ∈ xs := by
    rw [List.getD_eq_getElem _ _ hi]
    exact List.mem_mergeSort.mp (List.getElem_mem hi)
  obtain ⟨hlow, hhigh⟩ := interpolate_mem (pairwise_mergeSort xs) hpos hlast'
  exact ⟨_, hmem ((Nat.floor_le_ceil _).trans_lt hlast'), _, hmem hlast', hlow, hhigh⟩

end Percentile

end ZeroCode.Foundation
