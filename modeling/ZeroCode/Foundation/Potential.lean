import ZeroCode.Foundation.Table
import ZeroCode.Foundation.Transition

/-!
# Potentials

A run is billed step by step. Where each step pays for what it serves with a drop of a
potential, but for what joined, the whole run serves at most what the potential was at its
start and what joined on the way.
-/

namespace ZeroCode.Foundation

variable {S A R : Type*}

/-- The sum of a weight over the steps of a run. -/
def total (step : S → A → Option S) (weight : S → A → ℕ) : S → List A → ℕ
  | _, [] => 0
  | s, a :: rest =>
    match step s a with
    | some t => weight s a + total step weight t rest
    | none => 0

/-- The potential at the start and what joined pay for what was served. -/
theorem total_le_of_potential {step : S → A → Option S} {allowed : S → A → Prop} (inv : S → Prop) (potential : S → ℕ)
    {served joined : S → A → ℕ} (kept : ∀ s a t, inv s → allowed s a → step s a = some t → inv t)
    (pays : ∀ s a t, inv s → allowed s a → step s a = some t → potential t + served s a ≤ potential s + joined s a)
    {s : S} (hinv : inv s) {actions : List A} (hallowed : Along step allowed s actions) :
    total step served s actions ≤ potential s + total step joined s actions := by
  induction actions generalizing s with
  | nil => exact Nat.zero_le _
  | cons a rest ih =>
    obtain ⟨hfirst, hrest⟩ := hallowed
    rw [total, total]
    cases hstep : step s a with
    | none => exact Nat.zero_le _
    | some t =>
      have hnext := ih (kept s a t hinv hfirst hstep) (hrest t hstep)
      have hpays := pays s a t hinv hfirst hstep
      simp only
      omega

/-- Rewriting counts no more rows than were counted before, and those that come to be counted. -/
theorem countP_updateWhere_le {counted : R → Bool} {condition : R → Bool} {f : R → R} (rows : List R) :
    (updateWhere condition f rows).countP counted ≤
      rows.countP counted + rows.countP fun r => condition r && counted (f r) := by
  induction rows with
  | nil => exact Nat.zero_le _
  | cons r rest ih =>
    have hcons : updateWhere condition f (r :: rest) = (if condition r then f r else r) :: updateWhere condition f rest :=
      rfl
    rw [hcons, List.countP_cons, List.countP_cons, List.countP_cons]
    cases hcondition : condition r with
    | false =>
      simp only [Bool.false_eq_true, if_false, Bool.false_and]
      omega
    | true =>
      simp only [if_true, Bool.true_and]
      omega

/-- Rewriting that no row comes to be counted by counts no more rows. -/
theorem countP_updateWhere_le_of_forall {counted : R → Bool} {condition : R → Bool} {f : R → R} {rows : List R}
    (h : ∀ r ∈ rows, condition r = true → counted (f r) = false) :
    (updateWhere condition f rows).countP counted ≤ rows.countP counted := by
  have hnone : rows.countP (fun r => condition r && counted (f r)) = 0 := by
    rw [List.countP_eq_zero]
    intro r hr hboth
    rw [Bool.and_eq_true] at hboth
    rw [h r hr hboth.1] at hboth
    cases hboth.2
  have hle := @countP_updateWhere_le R counted condition f rows
  omega

/-- Rewriting a row that was counted and is no more. -/
theorem countP_updateWhere_lt {counted : R → Bool} {condition : R → Bool} {f : R → R} {rows : List R}
    (h : ∀ r ∈ rows, condition r = true → counted (f r) = false) {r : R} (hr : r ∈ rows) (hcondition : condition r = true)
    (hcounted : counted r = true) : (updateWhere condition f rows).countP counted < rows.countP counted := by
  obtain ⟨before, after, rfl⟩ := List.append_of_mem hr
  have hsplit : updateWhere condition f (before ++ r :: after) =
      updateWhere condition f before ++ f r :: updateWhere condition f after := by
    simp [updateWhere, hcondition]
  have hbefore : (updateWhere condition f before).countP counted ≤ before.countP counted :=
    countP_updateWhere_le_of_forall fun r hr => h r (List.mem_append_left _ hr)
  have hafter : (updateWhere condition f after).countP counted ≤ after.countP counted :=
    countP_updateWhere_le_of_forall fun r hr => h r (List.mem_append_right _ (List.mem_cons_of_mem _ hr))
  rw [hsplit, List.countP_append, List.countP_append, List.countP_cons, List.countP_cons, h r hr hcondition, hcounted]
  simp only [Bool.false_eq_true, if_false, if_true]
  omega

end ZeroCode.Foundation
