import Mathlib.Data.List.Dedup
import Mathlib.Data.List.Nodup

/-!
# Grouping rows

A query groups rows by a key and returns one aggregate for each key that occurs, in any
order. Looked up by its key, the aggregate is that of the rows with the key.
-/

namespace ZeroCode.Foundation

variable {R K G : Type*} [DecidableEq K]

/-- The rows with a key. -/
def rowsOf (key : R → K) (rows : List R) (k : K) : List R := rows.filter fun r => key r = k

/-- These are the aggregates of the rows, one for each key, in some order. -/
def IsGroupBy (key : R → K) (aggregate : K → List R → G) (rows : List R) (groups : List G) : Prop :=
  groups.Perm ((rows.map key).dedup.map fun k => aggregate k (rowsOf key rows k))

variable {key : R → K} {aggregate : K → List R → G} {rows : List R} {groups : List G}

/-- There is an aggregate for some order. -/
theorem isGroupBy_dedup :
    IsGroupBy key aggregate rows ((rows.map key).dedup.map fun k => aggregate k (rowsOf key rows k)) :=
  List.Perm.refl _

/-- There are no rows with a key that does not occur. -/
theorem rowsOf_eq_nil_iff {k : K} : rowsOf key rows k = [] ↔ k ∉ rows.map key := by
  simp [rowsOf, List.filter_eq_nil_iff]

/-- The aggregates have different keys. -/
theorem IsGroupBy.nodup (h : IsGroupBy key aggregate rows groups) (id : G → K)
    (hid : ∀ k group, id (aggregate k group) = k) : (groups.map id).Nodup := by
  have hkeys : (groups.map id).Perm (rows.map key).dedup := by
    have hmap := h.map id
    rw [List.map_map] at hmap
    have hsame : ((rows.map key).dedup.map (id ∘ fun k => aggregate k (rowsOf key rows k))) = (rows.map key).dedup := by
      conv_rhs => rw [← List.map_id (rows.map key).dedup]
      exact List.map_congr_left fun k _ => hid k _
    rwa [hsame] at hmap
  exact hkeys.nodup_iff.mpr (List.nodup_dedup _)

/-- The aggregate of a key is found under it, if the key occurs. -/
theorem IsGroupBy.find?_eq (h : IsGroupBy key aggregate rows groups) (id : G → K)
    (hid : ∀ k group, id (aggregate k group) = k) (k : K) :
    (groups.find? fun g => id g = k) =
      if rowsOf key rows k = [] then none else some (aggregate k (rowsOf key rows k)) := by
  split
  · rename_i hnone
    rw [List.find?_eq_none]
    intro g hg hk
    obtain ⟨k', hk', rfl⟩ := List.mem_map.mp (h.subset hg)
    rw [decide_eq_true_eq, hid] at hk
    exact rowsOf_eq_nil_iff.mp hnone (hk ▸ List.mem_dedup.mp hk')
  · rename_i hsome
    have hoccurs : k ∈ rows.map key := by
      by_contra habsent
      exact hsome (rowsOf_eq_nil_iff.mpr habsent)
    have hmem : aggregate k (rowsOf key rows k) ∈ groups :=
      h.symm.subset (List.mem_map.mpr ⟨k, List.mem_dedup.mpr hoccurs, rfl⟩)
    obtain ⟨g, hfound⟩ : ∃ g, (groups.find? fun g => id g = k) = some g := by
      rw [← Option.isSome_iff_exists, List.find?_isSome]
      exact ⟨_, hmem, decide_eq_true (hid k _)⟩
    have hkey : id g = k := by simpa using List.find?_some hfound
    rw [hfound, List.inj_on_of_nodup_map (h.nodup id hid) (List.mem_of_find?_eq_some hfound) hmem
      (hkey.trans (hid k _).symm)]

end ZeroCode.Foundation
