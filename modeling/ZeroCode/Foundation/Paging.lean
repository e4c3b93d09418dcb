import Mathlib.Data.List.Sort
import Mathlib.Data.List.Perm.Lattice

/-!
# Pages of rows that are ordered by a key

A query sorts rows by a key, the largest first, and returns the rows from an offset on, up
to a limit. Rows with one key may come in any order, so another query may sort them another
way. A page has the same rows in every order exactly when no two rows with one key lie on
both sides of its start or of its end. The pages of one order partition the rows.
-/

namespace ZeroCode.Foundation

variable {A K : Type*} [LinearOrder K] (key : A → K)

/-- The rows in an order by the key, the largest first. -/
structure Ordered (rows order : List A) : Prop where
  perm : order.Perm rows
  sorted : order.Pairwise fun a b => key b ≤ key a

/-- The rows of an order from an offset on, up to a limit. -/
def pageOf (order : List A) (offset limit : ℕ) : List A := (order.drop offset).take limit

/-- The keys of the rows, the largest first. -/
def sortedKeys (rows : List A) : List K := (rows.map key).insertionSort (· ≥ ·)

/-- The keys right before a cut and right behind it are the same. -/
def Tied (keys : List K) (cut : ℕ) : Prop := 0 < cut ∧ cut < keys.length ∧ keys[cut - 1]? = keys[cut]?

instance (keys : List K) (cut : ℕ) : Decidable (Tied keys cut) :=
  inferInstanceAs (Decidable (_ ∧ _ ∧ _))

variable {key} {rows order order' : List A}

/-- Some order exists. -/
theorem ordered_insertionSort (rows : List A) :
    Ordered key rows (rows.insertionSort fun a b => key b ≤ key a) where
  perm := List.perm_insertionSort _ rows
  sorted := by
    have : Std.Total fun a b : A => key b ≤ key a := ⟨fun a b => le_total (key b) (key a)⟩
    have : IsTrans A fun a b => key b ≤ key a := ⟨fun a b c hab hbc => hbc.trans hab⟩
    exact List.pairwise_insertionSort _ rows

/-- The keys come in one order. -/
theorem Ordered.map_key (h : Ordered key rows order) : order.map key = sortedKeys key rows := by
  have hperm : (order.map key).Perm (sortedKeys key rows) :=
    (h.perm.map key).trans (List.perm_insertionSort _ _).symm
  refine hperm.eq_of_pairwise (fun a b _ _ hab hba => le_antisymm hba hab) (List.pairwise_map.mpr h.sorted) ?_
  exact List.pairwise_insertionSort (· ≥ ·) (rows.map key)

/-- The key of a row at a rank. -/
theorem Ordered.getElem?_sortedKeys (h : Ordered key rows order) (i : ℕ) :
    (sortedKeys key rows)[i]? = order[i]?.map key := by rw [← h.map_key, List.getElem?_map]

/-- There are as many keys as rows. -/
theorem Ordered.length_sortedKeys (h : Ordered key rows order) : (sortedKeys key rows).length = order.length := by
  rw [← h.map_key, List.length_map]

/-- Later rows have smaller keys, or the same. -/
theorem Ordered.key_le (h : Ordered key rows order) {i j : ℕ} (hij : i ≤ j) {a b : A} (ha : order[i]? = some a)
    (hb : order[j]? = some b) : key b ≤ key a := by
  obtain ⟨hi, rfl⟩ := List.getElem?_eq_some_iff.mp ha
  obtain ⟨hj, rfl⟩ := List.getElem?_eq_some_iff.mp hb
  rcases Nat.lt_or_eq_of_le hij with hlt | rfl
  · exact List.pairwise_iff_getElem.mp h.sorted i j hi hj hlt
  · exact le_refl _

/-- Where the keys differ, the rows before the cut are those with large keys. -/
theorem Ordered.take_eq_filter (h : Ordered key rows order) {cut : ℕ} {last first : K}
    (hlast : (sortedKeys key rows)[cut - 1]? = some last) (hfirst : (sortedKeys key rows)[cut]? = some first)
    (hpos : 0 < cut) (hne : last ≠ first) : order.take cut = order.filter fun a => last ≤ key a := by
  rw [h.getElem?_sortedKeys] at hlast hfirst
  obtain ⟨a, ha, rfl⟩ := Option.map_eq_some_iff.mp hlast
  obtain ⟨b, hb, rfl⟩ := Option.map_eq_some_iff.mp hfirst
  have hlt : key b < key a := lt_of_le_of_ne (h.key_le (Nat.sub_le cut 1) ha hb) hne.symm
  have hbefore : (order.take cut).filter (fun x => key a ≤ key x) = order.take cut := by
    refine List.filter_eq_self.mpr fun x hx => decide_eq_true ?_
    obtain ⟨i, hi, rfl⟩ := List.mem_take_iff_getElem.mp hx
    exact h.key_le (by omega) (List.getElem?_eq_getElem (by omega)) ha
  have hbehind : (order.drop cut).filter (fun x => key a ≤ key x) = [] := by
    refine List.filter_eq_nil_iff.mpr fun x hx => ?_
    obtain ⟨i, hi, rfl⟩ := List.mem_drop_iff_getElem.mp hx
    have hle := h.key_le (Nat.le_add_right cut i) hb (List.getElem?_eq_getElem (by omega))
    simpa using hle.trans_lt hlt
  calc order.take cut = (order.take cut ++ order.drop cut).filter fun x => key a ≤ key x := by
        rw [List.filter_append, hbefore, hbehind, List.append_nil]
    _ = order.filter fun x => key a ≤ key x := by rw [List.take_append_drop]

/-- Every order has the same rows before a cut that separates no equal keys. -/
theorem Ordered.take_perm (h : Ordered key rows order) (h' : Ordered key rows order') {cut : ℕ}
    (huntied : ¬ Tied (sortedKeys key rows) cut) : (order.take cut).Perm (order'.take cut) := by
  have hperm : order.Perm order' := h.perm.trans h'.perm.symm
  rcases Nat.eq_zero_or_pos cut with rfl | hpos
  · simp
  · rcases Nat.lt_or_ge cut (sortedKeys key rows).length with hlt | hge
    · have hlast := List.getElem?_eq_getElem ((Nat.sub_le cut 1).trans_lt hlt)
      have hfirst := List.getElem?_eq_getElem hlt
      have hne : (sortedKeys key rows)[cut - 1] ≠ (sortedKeys key rows)[cut] := by
        intro heq
        exact huntied ⟨hpos, hlt, by rw [hlast, hfirst, heq]⟩
      rw [h.take_eq_filter hlast hfirst hpos hne, h'.take_eq_filter hlast hfirst hpos hne]
      exact hperm.filter _
    · rw [List.take_of_length_le (h.length_sortedKeys ▸ hge), List.take_of_length_le (h'.length_sortedKeys ▸ hge)]
      exact hperm

/-- Every order has the same rows on a page whose ends separate no equal keys. -/
theorem Ordered.page_perm (h : Ordered key rows order) (h' : Ordered key rows order') {offset limit : ℕ}
    (hstart : ¬ Tied (sortedKeys key rows) offset) (hend : ¬ Tied (sortedKeys key rows) (offset + limit)) :
    (pageOf order offset limit).Perm (pageOf order' offset limit) := by
  have hbefore := h.take_perm h' hstart
  have hthrough := h.take_perm h' hend
  rw [List.take_add, List.take_add] at hthrough
  exact (List.perm_append_left_iff _).mp ((hbefore.symm.append_right _).trans hthrough)

/-- Two neighbours with one key may change places. -/
theorem Ordered.swap {front back : List A} {a b : A} (h : Ordered key rows (front ++ a :: b :: back))
    (hkey : key a = key b) : Ordered key rows (front ++ b :: a :: back) where
  perm := ((List.Perm.swap a b back).append_left front).trans h.perm
  sorted := by
    have hsorted := h.sorted
    simp only [List.pairwise_append, List.pairwise_cons, List.mem_cons, forall_eq_or_imp, hkey] at hsorted ⊢
    tauto

/-- Where a cut is tied, there is an order with two rows of one key right at the cut. -/
theorem exists_neighbours_of_tied {cut : ℕ} (htied : Tied (sortedKeys key rows) cut) :
    ∃ front a b back, front.length + 1 = cut ∧ key a = key b ∧ Ordered key rows (front ++ a :: b :: back) := by
  obtain ⟨hpos, hlt, hsame⟩ := htied
  have horder : Ordered key rows _ := ordered_insertionSort rows
  generalize (rows.insertionSort fun a b => key b ≤ key a) = order at horder
  rw [horder.length_sortedKeys] at hlt
  rw [horder.getElem?_sortedKeys, horder.getElem?_sortedKeys, List.getElem?_eq_getElem hlt,
    List.getElem?_eq_getElem ((Nat.sub_le cut 1).trans_lt hlt)] at hsame
  have hsplit : order = order.take (cut - 1) ++ order[cut - 1] :: order[cut] :: order.drop (cut + 1) := by
    obtain ⟨n, rfl⟩ : ∃ n, cut = n + 1 := ⟨cut - 1, by omega⟩
    simp only [Nat.add_sub_cancel]
    rw [← List.drop_eq_getElem_cons, ← List.drop_eq_getElem_cons, List.take_append_drop]
  refine ⟨order.take (cut - 1), order[cut - 1], order[cut], order.drop (cut + 1), ?_, Option.some.inj hsame, ?_⟩
  · rw [List.length_take]
    omega
  · rwa [← hsplit]

/-- A page that starts between two rows holds the second of them. -/
theorem pageOf_start (front back : List A) (a b : A) {offset limit : ℕ} (hoffset : front.length + 1 = offset)
    (hlimit : 0 < limit) : pageOf (front ++ a :: b :: back) offset limit = b :: back.take (limit - 1) := by
  obtain ⟨n, rfl⟩ : ∃ n, limit = n + 1 := ⟨limit - 1, by omega⟩
  subst hoffset
  have hdrop : (front ++ a :: b :: back).drop (front.length + 1) = b :: back := by
    rw [List.drop_append]
    simp
  rw [pageOf, hdrop, List.take_succ_cons, Nat.add_sub_cancel]

/-- A page that ends between two rows holds the first of them. -/
theorem pageOf_end (front back : List A) (a b : A) {offset limit : ℕ} (hend : front.length + 1 = offset + limit)
    (hlimit : 0 < limit) : pageOf (front ++ a :: b :: back) offset limit = front.drop offset ++ [a] := by
  have hoffset : offset ≤ front.length := by omega
  have hlength : limit = (front.drop offset).length + 1 := by
    rw [List.length_drop]
    omega
  rw [pageOf, List.drop_append_of_le_length hoffset, hlength, List.take_length_add_append]
  rfl

/-- Where an end of a page is tied, the page has other rows in another order. -/
theorem exists_orders_of_tied {offset limit : ℕ} (hlimit : 0 < limit) (hnodup : rows.Nodup)
    (htied : Tied (sortedKeys key rows) offset ∨ Tied (sortedKeys key rows) (offset + limit)) :
    ∃ order order', Ordered key rows order ∧ Ordered key rows order' ∧
      ¬ (pageOf order offset limit).Perm (pageOf order' offset limit) := by
  rcases htied with hstart | hend
  · obtain ⟨front, a, b, back, hlength, hkey, horder⟩ := exists_neighbours_of_tied hstart
    refine ⟨_, _, horder, horder.swap hkey, fun hperm => ?_⟩
    rw [pageOf_start _ _ _ _ hlength hlimit, pageOf_start _ _ _ _ hlength hlimit] at hperm
    have hdistinct := horder.perm.nodup_iff.mpr hnodup
    have hbehind : a ∉ b :: back := (List.nodup_cons.mp (List.nodup_append.mp hdistinct).2.1).1
    have hmem : a ∈ b :: back.take (limit - 1) := hperm.mem_iff.mpr List.mem_cons_self
    rcases List.mem_cons.mp hmem with hsame | hback
    · exact hbehind (List.mem_cons.mpr (Or.inl hsame))
    · exact hbehind (List.mem_cons_of_mem b (List.mem_of_mem_take hback))
  · obtain ⟨front, a, b, back, hlength, hkey, horder⟩ := exists_neighbours_of_tied hend
    refine ⟨_, _, horder, horder.swap hkey, fun hperm => ?_⟩
    rw [pageOf_end _ _ _ _ hlength hlimit, pageOf_end _ _ _ _ hlength hlimit] at hperm
    have hdistinct := horder.perm.nodup_iff.mpr hnodup
    have hbehind : a ∉ b :: back := (List.nodup_cons.mp (List.nodup_append.mp hdistinct).2.1).1
    have hmem : a ∈ front.drop offset ++ [b] := hperm.mem_iff.mp (List.mem_append_right _ (List.mem_singleton_self a))
    rcases List.mem_append.mp hmem with hfront | hsame
    · exact (List.nodup_append.mp hdistinct).2.2 a (List.mem_of_mem_drop hfront) a List.mem_cons_self rfl
    · exact hbehind (List.mem_cons.mpr (Or.inl (List.mem_singleton.mp hsame)))

/-- Every order has the same rows on a page exactly when no end of the page is tied. -/
theorem page_determined_iff {offset limit : ℕ} (hlimit : 0 < limit) (hnodup : rows.Nodup) :
    (∀ order order', Ordered key rows order → Ordered key rows order' →
        (pageOf order offset limit).Perm (pageOf order' offset limit)) ↔
      ¬ Tied (sortedKeys key rows) offset ∧ ¬ Tied (sortedKeys key rows) (offset + limit) := by
  constructor
  · intro hsame
    by_contra hnot
    rw [← not_or, not_not] at hnot
    obtain ⟨order, order', horder, horder', hne⟩ := exists_orders_of_tied hlimit hnodup hnot
    exact hne (hsame order order' horder horder')
  · rintro ⟨hstart, hend⟩ order order' horder horder'
    exact horder.page_perm horder' hstart hend

/-- A page has the rows of its ranks. -/
theorem mem_pageOf_iff {offset limit : ℕ} {a : A} :
    a ∈ pageOf order offset limit ↔ ∃ i, offset ≤ i ∧ i < offset + limit ∧ order[i]? = some a := by
  rw [pageOf, List.mem_iff_getElem?]
  constructor
  · rintro ⟨i, hi⟩
    rw [List.getElem?_take, List.getElem?_drop] at hi
    split at hi
    · exact ⟨offset + i, Nat.le_add_right _ _, by omega, hi⟩
    · cases hi
  · rintro ⟨i, hlow, hhigh, hi⟩
    refine ⟨i - offset, ?_⟩
    rw [List.getElem?_take_of_lt (by omega), List.getElem?_drop, Nat.add_sub_cancel' hlow, hi]

/-- Different pages of one order have no row in common. -/
theorem pageOf_disjoint (hnodup : order.Nodup) {m n limit : ℕ} (hne : m ≠ n) :
    (pageOf order (m * limit) limit).Disjoint (pageOf order (n * limit) limit) := by
  intro a hm hn
  obtain ⟨i, hlow, hhigh, hi⟩ := mem_pageOf_iff.mp hm
  obtain ⟨j, hlow', hhigh', hj⟩ := mem_pageOf_iff.mp hn
  obtain ⟨hilt, hia⟩ := List.getElem?_eq_some_iff.mp hi
  obtain ⟨hjlt, hja⟩ := List.getElem?_eq_some_iff.mp hj
  obtain rfl : i = j := hnodup.getElem_inj_iff.mp (hia.trans hja.symm)
  rw [← Nat.succ_mul] at hhigh hhigh'
  exact hne (Nat.le_antisymm (Nat.le_of_lt_succ (Nat.lt_of_mul_lt_mul_right (hlow.trans_lt hhigh')))
    (Nat.le_of_lt_succ (Nat.lt_of_mul_lt_mul_right (hlow'.trans_lt hhigh))))

/-- Every row of an order is on a page that starts inside the order. -/
theorem exists_pageOf {limit : ℕ} (hlimit : 0 < limit) {a : A} (ha : a ∈ order) :
    ∃ n, n * limit < order.length ∧ a ∈ pageOf order (n * limit) limit := by
  obtain ⟨i, hi, rfl⟩ := List.mem_iff_getElem.mp ha
  have hlow : i / limit * limit ≤ i := Nat.div_mul_le_self i limit
  have hhigh : i < i / limit * limit + limit := Nat.lt_div_mul_add hlimit
  exact ⟨i / limit, hlow.trans_lt hi, mem_pageOf_iff.mpr ⟨i, hlow, hhigh, List.getElem?_eq_getElem hi⟩⟩

end ZeroCode.Foundation
