import ZeroCode.Foundation.CommonSubsequence

/-!
# The difference of two outputs

A failed case shows the lines of the expected output and of the real one in one list. A table
is filled from its last cell to the first, and a walk through both outputs asks it which line
to take next. The walk loses no line of either, and what it marks as the same is a longest
common subsequence, since every cell of the table holds the length of one of what lies behind.
-/

namespace ZeroCode.Web

open ZeroCode.Foundation

/-- In which of the two outputs a line is. -/
inductive DiffKind
  | same
  | add
  | del
  deriving DecidableEq, Repr

/-- A line of the difference. -/
structure DiffLine where
  kind : DiffKind
  text : String
  deriving DecidableEq, Repr

/-- Cut at every newline, and take a carriage return in front of one along. -/
def cutLines : List Char → List (List Char)
  | [] => [[]]
  | '\n' :: rest => [] :: cutLines rest
  | '\r' :: '\n' :: rest => [] :: cutLines rest
  | c :: rest => (cutLines rest).modifyHead (c :: ·)

/-- The lines of an output. -/
def splitLines (s : String) : List String := (cutLines s.toList).map String.ofList

section Walk

variable (aL bL : List String)

/-- Fill one cell of the table from the next row and the next column. -/
def fillCell (i j : ℕ) (dp : ℕ → ℕ → ℕ) : ℕ → ℕ → ℕ := fun row column =>
  if row = i ∧ column = j then
    if aL[i]? = bL[j]? then dp (i + 1) (j + 1) + 1 else max (dp (i + 1) j) (dp i (j + 1))
  else dp row column

/-- Fill the cells of a row below a column, from the last one on. -/
def fillRow (i : ℕ) : ℕ → (ℕ → ℕ → ℕ) → ℕ → ℕ → ℕ
  | 0, dp => dp
  | j + 1, dp => fillRow i j (fillCell aL bL i j dp)

/-- Fill the rows below a row, from the last one on. -/
def fillRows : ℕ → (ℕ → ℕ → ℕ) → ℕ → ℕ → ℕ
  | 0, dp => dp
  | i + 1, dp => fillRows i (fillRow aL bL i bL.length dp)

/-- The table of two lists of lines, all zero before it is filled. -/
def lcsTable : ℕ → ℕ → ℕ := fillRows aL bL aL.length fun _ _ => 0

/-- Push the lines from an index on, all of one kind. -/
def pushRest (kind : DiffKind) (lines : List String) (i : ℕ) (out : List DiffLine) : List DiffLine :=
  if h : i < lines.length then pushRest kind lines (i + 1) (out ++ [⟨kind, lines[i]⟩]) else out
termination_by lines.length - i

/-- Walk through both lists of lines by the table. Once one is used up, the rest of the other follows. -/
def walk (dp : ℕ → ℕ → ℕ) (i j : ℕ) (out : List DiffLine) : List DiffLine :=
  if h : i < aL.length ∧ j < bL.length then
    if aL[i] = bL[j] then walk dp (i + 1) (j + 1) (out ++ [⟨.same, aL[i]⟩])
    else if dp (i + 1) j ≥ dp i (j + 1) then walk dp (i + 1) j (out ++ [⟨.del, aL[i]⟩])
    else walk dp i (j + 1) (out ++ [⟨.add, bL[j]⟩])
  else pushRest .add bL j (pushRest .del aL i out)
termination_by (aL.length - i) + (bL.length - j)

end Walk

/-- The difference of two outputs by lines. -/
def lineDiff (a b : String) : List DiffLine :=
  let aL := splitLines a
  let bL := splitLines b
  walk aL bL (lcsTable aL bL) 0 0 []

section Texts

/-- The texts of the lines whose kind is not this one. -/
def textsExcept (kind : DiffKind) (diff : List DiffLine) : List String :=
  (diff.filter fun line => line.kind ≠ kind).map (·.text)

/-- How many lines are the same. -/
def sameCount (diff : List DiffLine) : ℕ := diff.countP fun line => line.kind = .same

end Texts

section Table

variable {aL bL : List String}

/-- The cells behind a cell, and this one, hold the lengths of longest common subsequences, and all others zero. -/
def Filled (aL bL : List String) (i j : ℕ) (dp : ℕ → ℕ → ℕ) : Prop :=
  ∀ row column, dp row column =
    if i < row ∨ row = i ∧ j ≤ column then lcsLength (aL.drop row) (bL.drop column) else 0

variable {i j : ℕ} {dp : ℕ → ℕ → ℕ}

/-- One more cell is filled. -/
theorem Filled.fillCell (hi : i < aL.length) (hj : j < bL.length) (h : Filled aL bL i (j + 1) dp) :
    Filled aL bL i j (fillCell aL bL i j dp) := by
  intro row column
  by_cases hcell : row = i ∧ column = j
  · obtain ⟨rfl, rfl⟩ := hcell
    have hdiagonal := h (row + 1) (column + 1)
    have hbelow := h (row + 1) column
    have hright := h row (column + 1)
    rw [if_pos (by omega)] at hdiagonal hbelow hright
    rw [Web.fillCell, if_pos ⟨rfl, rfl⟩, if_pos (Or.inr ⟨rfl, le_rfl⟩), hdiagonal, hbelow, hright,
      lcsLength_drop hi hj, List.getElem?_eq_getElem hi, List.getElem?_eq_getElem hj]
    simp only [Option.some.injEq]
  · rw [Web.fillCell, if_neg hcell, h row column]
    have hsame : (i < row ∨ row = i ∧ j + 1 ≤ column) ↔ (i < row ∨ row = i ∧ j ≤ column) := by omega
    simp only [hsame]

/-- A row is filled from the last cell on. -/
theorem Filled.fillRow (hi : i < aL.length) (hj : j ≤ bL.length) (h : Filled aL bL i j dp) :
    Filled aL bL i 0 (fillRow aL bL i j dp) := by
  induction j generalizing dp with
  | zero => exact h
  | succ j ih => exact ih (Nat.le_of_succ_le hj) (h.fillCell hi hj)

/-- Behind the last column nothing is common, so a filled row starts the one before it. -/
theorem Filled.previousRow (h : Filled aL bL (i + 1) 0 dp) : Filled aL bL i bL.length dp := by
  intro row column
  rw [h row column]
  by_cases hrow : i < row
  · rw [if_pos (by omega), if_pos (Or.inl hrow)]
  · rw [if_neg (by omega)]
    split_ifs with hcolumn
    · have hnone : bL.drop column = [] := List.drop_eq_nil_of_le (by omega)
      rw [hnone, lcsLength_nil_right]
    · rfl

/-- The rows are filled from the last one on. -/
theorem Filled.fillRows (hi : i ≤ aL.length) (h : Filled aL bL i 0 dp) : Filled aL bL 0 0 (fillRows aL bL i dp) := by
  induction i generalizing dp with
  | zero => exact h
  | succ i ih => exact ih (Nat.le_of_succ_le hi) (h.previousRow.fillRow hi le_rfl)

/-- Every cell of the table holds the length of a longest common subsequence of what lies behind. -/
theorem lcsTable_eq (row column : ℕ) :
    lcsTable aL bL row column = lcsLength (aL.drop row) (bL.drop column) := by
  have hstart : Filled aL bL aL.length 0 fun _ _ => 0 := by
    intro row column
    split_ifs with hrow
    · rw [List.drop_eq_nil_of_le (by omega), lcsLength_nil_left]
    · rfl
  have hfilled := hstart.fillRows le_rfl row column
  rwa [if_pos (by omega)] at hfilled

end Table

section Difference

variable {aL bL : List String} {dp : ℕ → ℕ → ℕ}

/-- The rest is pushed line by line. -/
theorem pushRest_eq (kind : DiffKind) (lines : List String) (i : ℕ) (out : List DiffLine) :
    pushRest kind lines i out = out ++ (lines.drop i).map fun line => ⟨kind, line⟩ := by
  fun_induction pushRest kind lines i out with
  | case1 i out h ih => rw [ih, List.drop_eq_getElem_cons h, List.map_cons, List.append_assoc, List.singleton_append]
  | case2 i out h => rw [List.drop_eq_nil_of_le (not_lt.mp h), List.map_nil, List.append_nil]

/-- The texts of a difference in two parts. -/
@[simp] theorem textsExcept_append (kind : DiffKind) (front back : List DiffLine) :
    textsExcept kind (front ++ back) = textsExcept kind front ++ textsExcept kind back := by
  rw [textsExcept, List.filter_append, List.map_append, textsExcept, textsExcept]

/-- The texts of lines that are all of one kind. -/
@[simp] theorem textsExcept_map (kind other : DiffKind) (lines : List String) :
    textsExcept kind (lines.map fun line => ⟨other, line⟩) = if other = kind then [] else lines := by
  induction lines with
  | nil => simp [textsExcept]
  | cons line rest ih =>
    rw [textsExcept] at ih ⊢
    by_cases hkind : other = kind
    · simp [hkind]
    · simpa [hkind] using ih

/-- The texts of one line. -/
@[simp] theorem textsExcept_singleton (kind other : DiffKind) (line : String) :
    textsExcept kind [⟨other, line⟩] = if other = kind then [] else [line] := textsExcept_map kind other [line]

/-- The lines that are the same in two parts. -/
theorem sameCount_append (front back : List DiffLine) :
    sameCount (front ++ back) = sameCount front + sameCount back := List.countP_append

/-- Lines of another kind are not the same. -/
theorem sameCount_map {kind : DiffKind} (h : kind ≠ .same) (lines : List String) :
    sameCount (lines.map fun line => ⟨kind, line⟩) = 0 := by
  rw [sameCount, List.countP_eq_zero]
  intro line hline
  obtain ⟨text, -, rfl⟩ := List.mem_map.mp hline
  simpa using h

/-- The walk loses no line of the first output. -/
theorem textsExcept_add_walk (i j : ℕ) (out : List DiffLine) :
    textsExcept .add (walk aL bL dp i j out) = textsExcept .add out ++ aL.drop i := by
  fun_induction walk aL bL dp i j out with
  | case1 i j out h heq ih =>
    rw [ih, List.drop_eq_getElem_cons h.1]
    simp
  | case2 i j out h hne hdp ih =>
    rw [ih, List.drop_eq_getElem_cons h.1]
    simp
  | case3 i j out h hne hdp ih =>
    rw [ih]
    simp
  | case4 i j out h =>
    rw [pushRest_eq, pushRest_eq, textsExcept_append, textsExcept_append, textsExcept_map, textsExcept_map]
    simp

/-- The walk loses no line of the second output. -/
theorem textsExcept_del_walk (i j : ℕ) (out : List DiffLine) :
    textsExcept .del (walk aL bL dp i j out) = textsExcept .del out ++ bL.drop j := by
  fun_induction walk aL bL dp i j out with
  | case1 i j out h heq ih =>
    rw [ih, List.drop_eq_getElem_cons h.2]
    simp [heq]
  | case2 i j out h hne hdp ih =>
    rw [ih]
    simp
  | case3 i j out h hne hdp ih =>
    rw [ih, List.drop_eq_getElem_cons h.2]
    simp
  | case4 i j out h =>
    rw [pushRest_eq, pushRest_eq, textsExcept_append, textsExcept_append, textsExcept_map, textsExcept_map]
    simp

/-- By a table of the longest common subsequences the walk marks one. -/
theorem sameCount_walk (hdp : ∀ row column, dp row column = lcsLength (aL.drop row) (bL.drop column)) (i j : ℕ)
    (out : List DiffLine) :
    sameCount (walk aL bL dp i j out) = sameCount out + lcsLength (aL.drop i) (bL.drop j) := by
  fun_induction walk aL bL dp i j out with
  | case1 i j out h heq ih =>
    have hsame : sameCount [⟨.same, aL[i]⟩] = 1 := rfl
    rw [ih, lcsLength_drop h.1 h.2, if_pos heq, sameCount_append, hsame]
    omega
  | case2 i j out h hne hle ih =>
    rw [hdp, hdp] at hle
    have hnone : sameCount [⟨.del, aL[i]⟩] = 0 := rfl
    rw [ih, lcsLength_drop h.1 h.2, if_neg hne, max_eq_left hle, sameCount_append, hnone, Nat.add_zero]
  | case3 i j out h hne hlt ih =>
    rw [hdp, hdp] at hlt
    have hnone : sameCount [⟨.add, bL[j]⟩] = 0 := rfl
    rw [ih, lcsLength_drop h.1 h.2, if_neg hne, max_eq_right (not_le.mp hlt).le, sameCount_append, hnone,
      Nat.add_zero]
  | case4 i j out h =>
    have hused : lcsLength (aL.drop i) (bL.drop j) = 0 := by
      rcases not_and_or.mp h with hi | hj
      · rw [List.drop_eq_nil_of_le (not_lt.mp hi), lcsLength_nil_left]
      · rw [List.drop_eq_nil_of_le (not_lt.mp hj), lcsLength_nil_right]
    rw [pushRest_eq, pushRest_eq, sameCount_append, sameCount_append, sameCount_map (by decide),
      sameCount_map (by decide), hused]

/-- For every two outputs: the lines of the difference that are the same or deleted are the lines of the first, those
that are the same or added are the lines of the second, and those that are the same are as many as a longest common
subsequence has. -/
theorem lineDiff_correct_optimal (a b : String) :
    textsExcept .add (lineDiff a b) = splitLines a ∧ textsExcept .del (lineDiff a b) = splitLines b ∧
      IsGreatest (commonLengths (splitLines a) (splitLines b)) (sameCount (lineDiff a b)) := by
  refine ⟨?_, ?_, ?_⟩
  · rw [lineDiff, textsExcept_add_walk]
    rfl
  · rw [lineDiff, textsExcept_del_walk]
    rfl
  · have hcount : sameCount (lineDiff a b) = lcsLength (splitLines a) (splitLines b) := by
      rw [lineDiff, sameCount_walk lcsTable_eq]
      exact Nat.zero_add _
    rw [hcount]
    exact isGreatest_lcsLength _ _

end Difference

end ZeroCode.Web
