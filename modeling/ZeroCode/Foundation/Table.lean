import Mathlib.Algebra.BigOperators.Group.List.Basic
import Mathlib.Algebra.Order.Ring.Nat
import Mathlib.Data.List.Nodup

/-!
# Tables with conditional updates

A table is a list of rows, and an update rewrites the rows that meet its condition. Rows
outside the condition are kept as they are, and an update that does not touch the key
keeps the keys, their order and their uniqueness.
-/

namespace ZeroCode.Foundation

variable {R K : Type*}

/-- Rewrite the rows that meet the condition. -/
def updateWhere (condition : R → Bool) (f : R → R) (rows : List R) : List R :=
  rows.map fun r => if condition r then f r else r

/-- A row outside the condition is kept. -/
theorem mem_updateWhere_of_not {condition : R → Bool} {f : R → R} {rows : List R} {r : R}
    (hr : r ∈ rows) (hnot : condition r = false) : r ∈ updateWhere condition f rows :=
  List.mem_map.mpr ⟨r, hr, by simp [hnot]⟩

/-- A row under the condition is rewritten. -/
theorem mem_updateWhere_self {condition : R → Bool} {f : R → R} {rows : List R} {r : R}
    (hr : r ∈ rows) (hcondition : condition r = true) : f r ∈ updateWhere condition f rows :=
  List.mem_map.mpr ⟨r, hr, by simp [hcondition]⟩

/-- Every row of an updated table is a kept one or the rewriting of one that met the condition. -/
theorem mem_updateWhere {condition : R → Bool} {f : R → R} {rows : List R} {r : R}
    (hr : r ∈ updateWhere condition f rows) :
    (r ∈ rows ∧ condition r = false) ∨ ∃ old ∈ rows, condition old = true ∧ f old = r := by
  obtain ⟨old, hold, rfl⟩ := List.mem_map.mp hr
  by_cases hcondition : condition old = true
  · exact Or.inr ⟨old, hold, hcondition, by simp [hcondition]⟩
  · have hnot : condition old = false := by simpa using hcondition
    exact Or.inl ⟨by simpa [hnot] using hold, by simp [hnot]⟩

/-- What holds of every row of a table, and of the rewriting of every row that meets the condition, holds after the
update. -/
theorem forall_mem_updateWhere {property : R → Prop} {condition : R → Bool} {f : R → R} {rows : List R}
    (hold : ∀ r ∈ rows, property r) (hnew : ∀ r ∈ rows, condition r = true → property (f r)) :
    ∀ r ∈ updateWhere condition f rows, property r := by
  intro r hr
  rcases mem_updateWhere hr with ⟨hkept, _⟩ | ⟨old, hmem, hselected, rfl⟩
  · exact hold r hkept
  · exact hnew old hmem hselected

/-- Every row of a table is kept by an update or rewritten by it. -/
theorem exists_mem_updateWhere {condition : R → Bool} {f : R → R} {rows : List R} {r : R} (hr : r ∈ rows) :
    ∃ r' ∈ updateWhere condition f rows, (condition r = false ∧ r' = r) ∨ (condition r = true ∧ r' = f r) := by
  cases hcondition : condition r with
  | false => exact ⟨r, mem_updateWhere_of_not hr hcondition, Or.inl ⟨rfl, rfl⟩⟩
  | true => exact ⟨f r, List.mem_map.mpr ⟨r, hr, by simp [hcondition]⟩, Or.inr ⟨rfl, rfl⟩⟩

/-- An update of one key rewrites the row that has it. -/
theorem exists_rewritten_of_key [BEq K] [LawfulBEq K] {key : R → K} {k : K} {rows : List R} (hk : k ∈ rows.map key)
    (f : R → R) : ∃ old, key old = k ∧ f old ∈ updateWhere (fun r => key r == k) f rows := by
  obtain ⟨old, hold, rfl⟩ := List.mem_map.mp hk
  obtain ⟨r, hr, ⟨hother, _⟩ | ⟨_, rfl⟩⟩ := @exists_mem_updateWhere _ (fun r => key r == key old) f _ _ hold
  · rw [beq_self_eq_true] at hother
    cases hother
  · exact ⟨old, rfl, hr⟩

/-- An update that leaves the key alone keeps the keys of the table. -/
theorem map_key_updateWhere {key : R → K} {condition : R → Bool} {f : R → R} (hf : ∀ r, key (f r) = key r)
    (rows : List R) : (updateWhere condition f rows).map key = rows.map key := by
  rw [updateWhere, List.map_map]
  refine List.map_congr_left fun r _ => ?_
  simp only [Function.comp_apply]
  split
  · exact hf r
  · rfl

/-- In a table with unique keys, two rows with one key are the same row. -/
theorem eq_of_key_eq {key : R → K} {rows : List R} (hunique : (rows.map key).Nodup) {r r' : R}
    (hr : r ∈ rows) (hr' : r' ∈ rows) (hkey : key r = key r') : r = r' :=
  List.inj_on_of_nodup_map hunique hr hr' hkey

/-- In a table with unique keys, rows with the same keys are the same rows. -/
theorem perm_of_map_key_perm {key : R → K} {rows chosen chosen' : List R} (hunique : (rows.map key).Nodup)
    (hchosen : chosen.Subperm rows) (hchosen' : chosen'.Subperm rows)
    (hkeys : (chosen.map key).Perm (chosen'.map key)) : chosen.Perm chosen' := by
  have hnodup {xs : List R} (hxs : xs.Subperm rows) : xs.Nodup := by
    obtain ⟨part, hperm, hsub⟩ := hxs
    exact hperm.nodup_iff.mp ((hunique.of_map key).sublist hsub)
  have hmem {xs ys : List R} (hxs : xs.Subperm rows) (hys : ys.Subperm rows) (h : (xs.map key).Perm (ys.map key)) {r : R}
      (hr : r ∈ xs) : r ∈ ys := by
    obtain ⟨r', hr', hsame⟩ := List.mem_map.mp (h.mem_iff.mp (List.mem_map_of_mem hr))
    rwa [← eq_of_key_eq hunique (hys.subset hr') (hxs.subset hr) hsame]
  refine (List.perm_ext_iff_of_nodup (hnodup hchosen) (hnodup hchosen')).mpr fun r => ?_
  exact ⟨hmem hchosen hchosen' hkeys, hmem hchosen' hchosen hkeys.symm⟩

/-- A symmetric relation between the entries of a list holds of any two of them, whichever comes first. -/
theorem relation_of_pairwise {relation : R → R → Prop} (hsymm : ∀ a b, relation a b → relation b a) {rows : List R}
    (hrows : rows.Pairwise relation) {i j : ℕ} {a b : R} (hi : rows[i]? = some a) (hj : rows[j]? = some b)
    (hne : j ≠ i) : relation a b := by
  obtain ⟨hilt, rfl⟩ := List.getElem?_eq_some_iff.mp hi
  obtain ⟨hjlt, rfl⟩ := List.getElem?_eq_some_iff.mp hj
  rw [List.pairwise_iff_getElem] at hrows
  rcases Nat.lt_or_gt_of_ne hne with hlt | hgt
  · exact hsymm _ _ (hrows j i hjlt hilt hlt)
  · exact hrows i j hilt hjlt hgt

/-- An entry of a list in which one was replaced is the new one or stands elsewhere. -/
theorem eq_or_exists_of_mem_set {rows : List R} {i : ℕ} {new r : R} (hr : r ∈ rows.set i new) :
    r = new ∨ ∃ j, j ≠ i ∧ rows[j]? = some r := by
  obtain ⟨j, hj⟩ := List.mem_iff_getElem?.mp hr
  rw [List.getElem?_set] at hj
  split at hj
  · split at hj
    · exact Or.inl (Option.some.inj hj).symm
    · cases hj
  · rename_i hij
    exact Or.inr ⟨j, Ne.symm hij, hj⟩

/-- What holds of every entry of a list and of a new entry holds of every entry after the new one is put behind. -/
theorem forall_mem_concat {property : R → Prop} {rows : List R} {new : R} (hold : ∀ r ∈ rows, property r)
    (hnew : property new) : ∀ r ∈ rows ++ [new], property r :=
  List.forall_mem_append.mpr ⟨hold, List.forall_mem_singleton.mpr hnew⟩

/-- What holds of every entry of a list and of a new entry holds of every entry after a replacement by the new one. -/
theorem forall_mem_set {property : R → Prop} {rows : List R} {new : R} (hold : ∀ r ∈ rows, property r)
    (hnew : property new) (i : ℕ) : ∀ r ∈ rows.set i new, property r := by
  intro r hr
  rcases List.mem_or_eq_of_mem_set hr with hmem | rfl
  · exact hold r hmem
  · exact hnew

/-- Replacing an entry of a list keeps a symmetric relation if the new entry has it to all others. -/
theorem pairwise_set {relation : R → R → Prop} (hsymm : ∀ a b, relation a b → relation b a) {rows : List R}
    (hrows : rows.Pairwise relation) {i : ℕ} {new : R}
    (hnew : ∀ j r, j ≠ i → rows[j]? = some r → relation new r) : (rows.set i new).Pairwise relation := by
  rw [List.pairwise_iff_getElem] at hrows ⊢
  intro j k hj hk hjk
  rw [List.length_set] at hj hk
  rw [List.getElem_set, List.getElem_set]
  split
  · rename_i hij
    rw [if_neg (by omega)]
    exact hnew k _ (by omega) (List.getElem?_eq_getElem hk)
  · split
    · exact hsymm _ _ (hnew j _ (by omega) (List.getElem?_eq_getElem hj))
    · exact hrows j k hj hk hjk

/-- An entry with a property is still there after an entry was replaced that has the property only if its
replacement does. -/
theorem exists_mem_set {property : R → Prop} {rows : List R} {i : ℕ} {old new : R} (hold : rows[i]? = some old)
    (hnew : property old → property new) (h : ∃ r ∈ rows, property r) : ∃ r ∈ rows.set i new, property r := by
  obtain ⟨r, hr, hproperty⟩ := h
  obtain ⟨j, hj⟩ := List.mem_iff_getElem?.mp hr
  by_cases hij : i = j
  · subst hij
    obtain ⟨hlt, _⟩ := List.getElem?_eq_some_iff.mp hold
    rw [hold] at hj
    cases hj
    exact ⟨new, List.mem_set hlt new, hnew hproperty⟩
  · exact ⟨r, List.mem_iff_getElem?.mpr ⟨j, (List.getElem?_set_ne hij).trans hj⟩, hproperty⟩

/-- Replacing an entry of a list changes a sum over the list by the difference of the two entries. -/
theorem sum_map_set {weight : R → ℕ} {rows : List R} {i : ℕ} {old new : R} (hold : rows[i]? = some old) :
    ((rows.set i new).map weight).sum + weight old = (rows.map weight).sum + weight new := by
  induction rows generalizing i with
  | nil => cases hold
  | cons r rest ih =>
    cases i with
    | zero =>
      cases hold
      simp only [List.set_cons_zero, List.map_cons, List.sum_cons]
      omega
    | succ i =>
      have hrest := ih (List.getElem?_cons_succ.symm.trans hold)
      simp only [List.set_cons_succ, List.map_cons, List.sum_cons]
      omega

/-- Replacing an entry of a list changes a count over the list by the difference of the two entries. -/
theorem countP_set_add {condition : R → Bool} {rows : List R} {i : ℕ} {old new : R} (hold : rows[i]? = some old) :
    (rows.set i new).countP condition + (condition old).toNat = rows.countP condition + (condition new).toNat := by
  obtain ⟨hlt, rfl⟩ := List.getElem?_eq_some_iff.mp hold
  rw [List.countP_set hlt]
  cases hcounted : condition rows[i] with
  | true =>
    have hpos : 0 < rows.countP condition := List.countP_pos_iff.mpr ⟨_, List.getElem_mem hlt, hcounted⟩
    cases condition new <;> simp <;> omega
  | false => cases condition new <;> simp

end ZeroCode.Foundation
