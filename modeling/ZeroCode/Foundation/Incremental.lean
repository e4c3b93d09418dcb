import Mathlib.Data.List.Basic

/-!
# Reading in pieces

A machine takes one symbol at a time, and writes what it can. What it has written and the
state it is in depend on the symbols alone, not on how they were grouped. A buffer that
keeps what no separator has ended yet can be cut as soon as there is something to cut: the
pieces and the remainder are those of the whole.
-/

namespace ZeroCode.Foundation

variable {S A B : Type*}

/-- Let a machine read symbols: the state after them, and what it has written. -/
def transduce (step : S → A → S × List B) : S → List A → S × List B
  | s, [] => (s, [])
  | s, a :: rest =>
    let next := step s a
    let last := transduce step next.1 rest
    (last.1, next.2 ++ last.2)

/-- Symbols in two groups are read as in one. -/
theorem transduce_append (step : S → A → S × List B) (s : S) (xs ys : List A) :
    transduce step s (xs ++ ys) =
      ((transduce step (transduce step s xs).1 ys).1,
        (transduce step s xs).2 ++ (transduce step (transduce step s xs).1 ys).2) := by
  induction xs generalizing s with
  | nil => rfl
  | cons a rest ih => simp only [List.cons_append, transduce, ih, List.append_assoc]

section Cut

variable [DecidableEq A]

/-- Cut a text at the first occurrence of a separator, which is dropped. -/
def cutAt (separator : List A) : List A → Option (List A × List A)
  | [] => none
  | a :: rest =>
    if separator.isPrefixOf (a :: rest) then some ([], (a :: rest).drop separator.length)
    else (cutAt separator rest).map fun parts => (a :: parts.1, parts.2)

/-- A cut takes the separator out of the text. -/
theorem eq_append_of_cutAt {separator text piece rest : List A} (h : cutAt separator text = some (piece, rest)) :
    text = piece ++ separator ++ rest := by
  induction text generalizing piece with
  | nil => cases h
  | cons a others ih =>
    rw [cutAt] at h
    split at h
    · rename_i hseparator
      cases h
      obtain ⟨tail, htail⟩ := List.isPrefixOf_iff_prefix.mp hseparator
      rw [← htail, List.drop_left, List.nil_append]
    · obtain ⟨parts, hparts, heq⟩ := Option.map_eq_some_iff.mp h
      cases heq
      rw [ih hparts, List.cons_append, List.cons_append]

/-- What can be cut is cut the same way, whatever follows. -/
theorem cutAt_append {separator text piece rest : List A} (h : cutAt separator text = some (piece, rest))
    (more : List A) : cutAt separator (text ++ more) = some (piece, rest ++ more) := by
  induction text generalizing piece with
  | nil => cases h
  | cons a others ih =>
    have hwhole := eq_append_of_cutAt h
    have hlong : separator.length ≤ (a :: others).length := by
      rw [hwhole, List.length_append, List.length_append]
      omega
    -- the separator is no longer than the text, so what follows cannot complete it
    have hsame : separator.isPrefixOf (a :: (others ++ more)) = separator.isPrefixOf (a :: others) := by
      rw [Bool.eq_iff_iff, List.isPrefixOf_iff_prefix, List.isPrefixOf_iff_prefix, ← List.cons_append]
      exact ⟨fun hstarts => List.prefix_of_prefix_length_le hstarts (List.prefix_append _ _) hlong,
        fun hstarts => hstarts.trans (List.prefix_append _ _)⟩
    rw [cutAt] at h
    rw [List.cons_append, cutAt, hsame]
    split at h
    · rename_i hseparator
      cases h
      rw [if_pos hseparator, ← List.cons_append, List.drop_append_of_le_length hlong]
    · rename_i hseparator
      obtain ⟨parts, hparts, heq⟩ := Option.map_eq_some_iff.mp h
      cases heq
      rw [if_neg hseparator, ih hparts, Option.map_some]

/-- Cut a text at every separator, at most as often as the fuel says: the pieces, and what no separator ends. -/
def drainWithin (separator : List A) : ℕ → List A → List (List A) × List A
  | 0, text => ([], text)
  | fuel + 1, text =>
    match cutAt separator text with
    | none => ([], text)
    | some (piece, rest) =>
      let last := drainWithin separator fuel rest
      (piece :: last.1, last.2)

/-- Cut a text at every separator: the pieces, and what no separator ends. -/
def drain (separator text : List A) : List (List A) × List A := drainWithin separator text.length text

variable {separator : List A}

/-- A cut leaves a shorter text. -/
theorem length_of_cutAt (hseparator : separator ≠ []) {text piece rest : List A}
    (h : cutAt separator text = some (piece, rest)) : rest.length < text.length := by
  have hpos : 0 < separator.length := List.length_pos_iff.mpr hseparator
  rw [eq_append_of_cutAt h, List.length_append, List.length_append]
  omega

/-- As much fuel as symbols is enough. -/
theorem drainWithin_eq (hseparator : separator ≠ []) {fuel : ℕ} {text : List A} (h : text.length ≤ fuel) :
    drainWithin separator fuel text = drain separator text := by
  suffices hsame : ∀ (fuel fuel' : ℕ) (text : List A), text.length ≤ fuel → text.length ≤ fuel' →
      drainWithin separator fuel text = drainWithin separator fuel' text from hsame _ _ _ h (Nat.le_refl _)
  intro fuel
  induction fuel with
  | zero =>
    intro fuel' text hfuel _
    obtain rfl := List.eq_nil_of_length_eq_zero (Nat.le_zero.mp hfuel)
    cases fuel' <;> rfl
  | succ fuel ih =>
    intro fuel' text hfuel hfuel'
    cases fuel' with
    | zero =>
      obtain rfl := List.eq_nil_of_length_eq_zero (Nat.le_zero.mp hfuel')
      rfl
    | succ fuel' =>
      rw [drainWithin, drainWithin]
      cases hcut : cutAt separator text with
      | none => rfl
      | some parts =>
        have hshorter := length_of_cutAt hseparator hcut
        simp only [ih fuel' parts.2 (by omega) (by omega)]

/-- A text without a separator is left as it is. -/
theorem drain_of_none {text : List A} (h : cutAt separator text = none) : drain separator text = ([], text) := by
  unfold drain
  cases text with
  | nil => rfl
  | cons a rest => rw [List.length_cons, drainWithin, h]

/-- The first piece is cut off, and then the others. -/
theorem drain_of_some (hseparator : separator ≠ []) {text piece rest : List A}
    (h : cutAt separator text = some (piece, rest)) :
    drain separator text = (piece :: (drain separator rest).1, (drain separator rest).2) := by
  have hshorter := length_of_cutAt hseparator h
  rw [← drainWithin_eq hseparator (Nat.le_succ text.length), drainWithin, h]
  simp only [drainWithin_eq hseparator (Nat.le_of_lt hshorter)]

/-- No separator is left in the remainder. -/
theorem cutAt_drain (hseparator : separator ≠ []) (text : List A) :
    cutAt separator (drain separator text).2 = none := by
  induction hlength : text.length using Nat.strongRecOn generalizing text with
  | ind n ih =>
    cases hcut : cutAt separator text with
    | none =>
      rw [drain_of_none hcut]
      exact hcut
    | some parts =>
      rw [drain_of_some hseparator hcut]
      exact ih parts.2.length (hlength ▸ length_of_cutAt hseparator hcut) parts.2 rfl

/-- Cutting early makes no difference: the pieces of the beginning come first, and what was left of it is cut with
the rest. -/
theorem drain_append (hseparator : separator ≠ []) (text more : List A) :
    drain separator (text ++ more) =
      ((drain separator text).1 ++ (drain separator ((drain separator text).2 ++ more)).1,
        (drain separator ((drain separator text).2 ++ more)).2) := by
  induction hlength : text.length using Nat.strongRecOn generalizing text with
  | ind n ih =>
    cases hcut : cutAt separator text with
    | none => simp only [drain_of_none hcut, List.nil_append]
    | some parts =>
      have hrest := ih parts.2.length (hlength ▸ length_of_cutAt hseparator hcut) parts.2 rfl
      simp only [drain_of_some hseparator hcut, drain_of_some hseparator (cutAt_append hcut more), hrest,
        List.cons_append]

/-- A text is cut at the first of its symbols that is the separator. -/
theorem cutAt_symbol {a : A} {piece : List A} (hpiece : a ∉ piece) (more : List A) :
    cutAt [a] (piece ++ a :: more) = some (piece, more) := by
  induction piece with
  | nil => simp [cutAt]
  | cons b rest ih =>
    obtain ⟨hb, hrest⟩ := not_or.mp (mt List.mem_cons.mpr hpiece)
    have hfirst : [a].isPrefixOf (b :: (rest ++ a :: more)) = false := by
      rw [List.isPrefixOf_cons_cons, beq_eq_false_iff_ne.mpr hb, Bool.false_and]
    rw [List.cons_append, cutAt, if_neg (Bool.eq_false_iff.mp hfirst), ih hrest]
    rfl

/-- A text without the symbol is not cut. -/
theorem cutAt_symbol_none {a : A} {text : List A} (htext : a ∉ text) : cutAt [a] text = none := by
  cases hcut : cutAt [a] text with
  | none => rfl
  | some parts =>
    have hparts := eq_append_of_cutAt hcut
    exact absurd (hparts ▸ by simp) htext

/-- The pieces and what is left are the pieces of a cut at every occurrence of the symbol. -/
theorem drain_symbol (a : A) (text : List A) : (drain [a] text).1 ++ [(drain [a] text).2] = text.splitOn a := by
  induction hlength : text.length using Nat.strongRecOn generalizing text with
  | ind n ih =>
    by_cases hmem : a ∈ text
    · obtain ⟨piece, more, rfl, hpiece⟩ := List.eq_append_cons_of_mem hmem
      have hshorter : more.length < n := by
        rw [← hlength, List.length_append, List.length_cons]
        omega
      rw [drain_of_some (List.cons_ne_nil a []) (cutAt_symbol hpiece more), List.cons_append,
        ih more.length hshorter more rfl, List.splitOn_append_cons_self_of_not_mem hpiece]
    · rw [drain_of_none (cutAt_symbol_none hmem), List.splitOn_eq_singleton hmem]
      rfl

end Cut

end ZeroCode.Foundation
