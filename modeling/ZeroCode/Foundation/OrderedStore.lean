import Mathlib.Data.List.Basic

/-!
# Stores in the order of insertion

A store is a list of keys with values. A value is set in the place of its key, or behind all
others if the key is new, so that the front of the list is what has been there longest.
-/

namespace ZeroCode.Foundation

variable {K V : Type*} [DecidableEq K]

/-- Set the value of a key in its place, or behind all others. -/
def put (key : K) (value : V) : List (K × V) → List (K × V)
  | [] => [(key, value)]
  | (other, old) :: rest => if other = key then (key, value) :: rest else (other, old) :: put key value rest

/-- Delete keys with their values. -/
def deleteKeys (keys : List K) (store : List (K × V)) : List (K × V) := store.filter fun entry => entry.1 ∉ keys

variable {key other : K} {value : V} {store : List (K × V)}

/-- What was set is found. -/
@[simp] theorem lookup_put_self : (put key value store).lookup key = some value := by
  induction store with
  | nil => exact List.lookup_cons_self
  | cons entry rest ih =>
    rw [put]
    split_ifs with hkey
    · exact List.lookup_cons_self
    · rw [List.lookup_cons, beq_eq_false_iff_ne.mpr (Ne.symm hkey), ih]

/-- Other keys keep their values. -/
theorem lookup_put_ne (h : other ≠ key) : (put key value store).lookup other = store.lookup other := by
  induction store with
  | nil => simp [put, h]
  | cons entry rest ih =>
    rw [put]
    split_ifs with hkey
    · have hentry : (other == entry.1) = false := beq_eq_false_iff_ne.mpr (hkey ▸ h)
      rw [List.lookup_cons, List.lookup_cons, hentry, beq_eq_false_iff_ne.mpr h]
    · rw [List.lookup_cons, List.lookup_cons, ih]

/-- Of two values that are set for a key the last one stays. -/
theorem put_put (old : V) : put key value (put key old store) = put key value store := by
  induction store with
  | nil => simp [put]
  | cons entry rest ih =>
    by_cases hkey : entry.1 = key
    · simp [put, hkey]
    · simp [put, hkey, ih]

/-- The key of what was set is there. -/
theorem mem_keys_put : key ∈ (put key value store).map Prod.fst := by
  induction store with
  | nil => simp [put]
  | cons entry rest ih =>
    rw [put]
    split_ifs with hkey
    · exact List.mem_cons_self
    · exact List.mem_cons_of_mem _ ih

/-- Keys that are not deleted keep their values. -/
theorem lookup_deleteKeys {keys : List K} (h : key ∉ keys) : (deleteKeys keys store).lookup key = store.lookup key := by
  induction store with
  | nil => rfl
  | cons entry rest ih =>
    rw [deleteKeys] at ih ⊢
    by_cases hdeleted : entry.1 ∈ keys
    · have hne : key ≠ entry.1 := fun heq => h (heq ▸ hdeleted)
      rw [List.filter_cons_of_neg (by simpa using hdeleted), ih, List.lookup_cons, beq_eq_false_iff_ne.mpr hne]
    · rw [List.filter_cons_of_pos (by simpa using hdeleted), List.lookup_cons, List.lookup_cons, ih]

/-- Without keys nothing is deleted. -/
@[simp] theorem deleteKeys_nil (store : List (K × V)) : deleteKeys [] store = store := by simp [deleteKeys]

/-- A key with a value is there. -/
theorem mem_keys_of_lookup (h : store.lookup key = some value) : key ∈ store.map Prod.fst := by
  obtain ⟨front, rest, rfl, _⟩ := List.lookup_eq_some_iff.mp h
  exact List.mem_map_of_mem (List.mem_append_right front List.mem_cons_self)

end ZeroCode.Foundation
