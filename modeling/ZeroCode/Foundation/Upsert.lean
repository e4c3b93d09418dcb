import ZeroCode.Foundation.Table

/-!
# Insert or update

A statement that inserts a row, unless there is one with its key, which it updates instead.
Keys stay unique and none is lost.
-/

namespace ZeroCode.Foundation

variable {R K : Type*} [BEq K] [LawfulBEq K]

/-- Update the row with a key, or insert one. -/
def upsert (key : R → K) (new : R) (update : R → R) (rows : List R) : List R :=
  if (rows.map key).contains (key new) then updateWhere (fun r => key r == key new) update rows else rows ++ [new]

variable {key : R → K} {new : R} {update : R → R} {rows : List R}

omit [LawfulBEq K] in
/-- The key of the new row is added, if it is not there yet. -/
theorem map_key_upsert (hupdate : ∀ r, key (update r) = key r) :
    (upsert key new update rows).map key =
      if (rows.map key).contains (key new) then rows.map key else rows.map key ++ [key new] := by
  unfold upsert
  split
  · exact map_key_updateWhere hupdate rows
  · rw [List.map_append, List.map_singleton]

/-- The keys stay unique. -/
theorem nodup_keys_upsert (hupdate : ∀ r, key (update r) = key r) (hunique : (rows.map key).Nodup) :
    ((upsert key new update rows).map key).Nodup := by
  rw [map_key_upsert hupdate]
  split
  · exact hunique
  · rename_i habsent
    refine List.nodup_append.mpr ⟨hunique, List.nodup_singleton _, fun a ha b hb => ?_⟩
    rintro rfl
    rw [List.mem_singleton.mp hb] at ha
    exact habsent (List.contains_iff_mem.mpr ha)

/-- A key is in the table afterwards exactly if it was before, or is that of the new row. -/
theorem mem_keys_upsert (hupdate : ∀ r, key (update r) = key r) {k : K} :
    k ∈ (upsert key new update rows).map key ↔ k ∈ rows.map key ∨ k = key new := by
  rw [map_key_upsert hupdate]
  split
  · rename_i hpresent
    refine ⟨Or.inl, fun h => h.elim id fun hk => ?_⟩
    rw [hk]
    exact List.contains_iff_mem.mp hpresent
  · rw [List.mem_append, List.mem_singleton]

/-- Every row is an old one of another key, an updated one, or the new one. -/
theorem mem_upsert {r : R} (hr : r ∈ upsert key new update rows) :
    (r ∈ rows ∧ key r ≠ key new) ∨ (∃ old ∈ rows, key old = key new ∧ update old = r) ∨ r = new := by
  unfold upsert at hr
  split at hr
  · rcases mem_updateWhere hr with ⟨hold, hother⟩ | ⟨old, hold, hkey, rfl⟩
    · exact Or.inl ⟨hold, by simpa using hother⟩
    · exact Or.inr (Or.inl ⟨old, hold, by simpa using hkey, rfl⟩)
  · rename_i habsent
    rcases List.mem_append.mp hr with hold | hnew
    · refine Or.inl ⟨hold, fun hkey => habsent (List.contains_iff_mem.mpr ?_)⟩
      exact hkey ▸ List.mem_map_of_mem hold
    · exact Or.inr (Or.inr (List.mem_singleton.mp hnew))

end ZeroCode.Foundation
