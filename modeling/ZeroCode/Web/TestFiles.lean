import ZeroCode.Foundation.Lines
import ZeroCode.Web.TestsPanel

/-!
# Test cases as a file

The cases are written as a file of rows with two fields and read from one. A field with a
quote, a comma or a newline is quoted, with every quote in it doubled. Outside of quotes the
reader drops carriage returns, so a file gives back the cases it was written from exactly if
every field with a carriage return is quoted for another reason.
-/

namespace ZeroCode.Web

open ZeroCode.Foundation

section Export

/-- A field must be quoted. -/
def needsQuotes (s : List Char) : Bool := s.any fun c => c == '"' || c == ',' || c == '\n'

/-- Every quote doubled. -/
def doubleQuotes (s : List Char) : List Char := s.flatMap fun c => if c = '"' then ['"', '"'] else [c]

/-- Write a field. -/
def esc (s : List Char) : List Char := if needsQuotes s then '"' :: doubleQuotes s ++ ['"'] else s

/-- Write a case as a row. -/
def TestCase.csvRow (t : TestCase) : List Char := esc t.stdin.toList ++ ',' :: esc t.expected.toList

/-- Write the cases with a header in front. -/
def exportCSV (tests : List TestCase) : String :=
  String.ofList (['\n'].intercalate ("stdin,expected".toList :: tests.map TestCase.csvRow) ++ ['\n'])

end Export

section Parse

/-- What has been read of a file. -/
structure CsvState where
  rows : List (List (List Char))
  row : List (List Char)
  field : List Char
  inQuote : Bool
  deriving DecidableEq, Repr

/-- One more character of the field. -/
def CsvState.add (state : CsvState) (c : Char) : CsvState := { state with field := state.field ++ [c] }

/-- The field is complete. -/
def CsvState.push (state : CsvState) : CsvState := { state with row := state.row ++ [state.field], field := [] }

/-- The row is complete. -/
def CsvState.flush (state : CsvState) : CsvState :=
  { state with rows := if state.row.length ≠ 0 then state.rows ++ [state.row] else state.rows, row := [] }

/-- Read the characters of a file. -/
def CsvState.scan (state : CsvState) : List Char → CsvState
  | [] => state
  | c :: rest =>
    if state.inQuote then
      if c = '"' ∧ rest.head? = some '"' then (state.add '"').scan rest.tail
      else if c = '"' then { state with inQuote := false }.scan rest
      else (state.add c).scan rest
    else if c = '"' then { state with inQuote := true }.scan rest
    else if c = ',' then state.push.scan rest
    else if c = '\r' then state.scan rest
    else if c = '\n' then state.push.flush.scan rest
    else (state.add c).scan rest
termination_by text => text.length

/-- The rows of a file. -/
def csvRows (src : List Char) : List (List (List Char)) :=
  let state := CsvState.scan ⟨[], [], [], false⟩ src
  if state.field.length ≠ 0 ∨ state.row.length ≠ 0 then state.push.flush.rows else state.rows

/-- The first cell names the column, in any case. -/
def isHeader (cell : List Char) : Bool := cell.map Char.toLower == "stdin".toList

/-- The case of a row, if it is not empty. -/
def rowCase (row : List (List Char)) : Option (String × String) :=
  let stdin := row[0]?.getD []
  let expected := row[1]?.getD []
  if stdin = [] ∧ expected = [] then none else some (String.ofList stdin, String.ofList expected)

/-- Read the cases of a file. -/
def parseCSV (src : String) : List (String × String) :=
  match csvRows src.toList with
  | [] => []
  | first :: rows => (if isHeader (first[0]?.getD []) then rows else first :: rows).filterMap rowCase

end Parse

section Scan

variable {rows : List (List (List Char))} {row : List (List Char)} {field : List Char}

/-- What the reader gets of a field. -/
def readField (s : List Char) : List Char := if needsQuotes s then s else s.filter (· ≠ '\r')

/-- A field without quotes is read up to its carriage returns. -/
theorem scan_plain {s : List Char} (h : needsQuotes s = false) (rest : List Char) :
    CsvState.scan ⟨rows, row, field, false⟩ (s ++ rest) =
      CsvState.scan ⟨rows, row, field ++ s.filter (· ≠ '\r'), false⟩ rest := by
  induction s generalizing field with
  | nil => rw [List.filter_nil, List.append_nil, List.nil_append]
  | cons c s ih =>
    rw [needsQuotes, List.any_cons, Bool.or_eq_false_iff] at h
    obtain ⟨hquote, hcomma, hnewline⟩ : c ≠ '"' ∧ c ≠ ',' ∧ c ≠ '\n' := by simpa [not_or, and_assoc] using h.1
    rw [List.cons_append, CsvState.scan, if_neg Bool.false_ne_true, if_neg hquote, if_neg hcomma]
    by_cases hreturn : c = '\r'
    · rw [if_pos hreturn, ih h.2, List.filter_cons_of_neg (by simpa using hreturn)]
    · rw [if_neg hreturn, if_neg hnewline, List.filter_cons_of_pos (by simpa using hreturn), CsvState.add, ih h.2,
        List.append_assoc, List.singleton_append]

/-- Inside of quotes a field is read as it is, up to a quote that no other one follows. -/
theorem scan_quoted (s : List Char) {rest : List Char} (hrest : rest.head? ≠ some '"') :
    CsvState.scan ⟨rows, row, field, true⟩ (doubleQuotes s ++ '"' :: rest) =
      CsvState.scan ⟨rows, row, field ++ s, false⟩ rest := by
  induction s generalizing field with
  | nil =>
    have hend : ¬ ('"' = '"' ∧ rest.head? = some '"') := fun h => hrest h.2
    rw [doubleQuotes, List.flatMap_nil, List.nil_append, CsvState.scan, if_pos rfl, if_neg hend, if_pos rfl,
      List.append_nil]
  | cons c s ih =>
    have hstep : CsvState.scan ⟨rows, row, field, true⟩ (doubleQuotes (c :: s) ++ '"' :: rest) =
        CsvState.scan ⟨rows, row, field ++ [c], true⟩ (doubleQuotes s ++ '"' :: rest) := by
      rw [doubleQuotes, List.flatMap_cons]
      by_cases hquote : c = '"'
      · have hpair : ['"', '"'] ++ doubleQuotes s ++ '"' :: rest = '"' :: '"' :: (doubleQuotes s ++ '"' :: rest) := rfl
        rw [if_pos hquote, hquote, ← doubleQuotes, hpair, CsvState.scan, if_pos rfl, if_pos ⟨rfl, rfl⟩, List.tail_cons,
          CsvState.add]
      · rw [if_neg hquote, List.singleton_append, List.cons_append, CsvState.scan, if_pos rfl,
          if_neg fun h => hquote h.1, if_neg hquote, CsvState.add, doubleQuotes]
    rw [hstep, ih, List.append_assoc, List.singleton_append]

/-- A written field is read. -/
theorem scan_esc (s : List Char) {rest : List Char} (hrest : rest.head? ≠ some '"') :
    CsvState.scan ⟨rows, row, [], false⟩ (esc s ++ rest) =
      CsvState.scan ⟨rows, row, readField s, false⟩ rest := by
  rw [esc, readField]
  split_ifs with hquotes
  · have hopen : '"' :: doubleQuotes s ++ ['"'] ++ rest = '"' :: (doubleQuotes s ++ '"' :: rest) := by simp
    rw [hopen, CsvState.scan, if_neg Bool.false_ne_true, if_pos rfl, scan_quoted s hrest, List.nil_append]
  · exact scan_plain (by simpa using hquotes) rest

/-- A written row is read. -/
theorem scan_row (stdin expected rest : List Char) :
    CsvState.scan ⟨rows, [], [], false⟩ (esc stdin ++ ',' :: esc expected ++ '\n' :: rest) =
      CsvState.scan ⟨rows ++ [[readField stdin, readField expected]], [], [], false⟩ rest := by
  rw [List.append_assoc, List.cons_append, scan_esc _ (by simp), CsvState.scan, if_neg Bool.false_ne_true,
    if_neg (by decide), if_pos rfl, CsvState.push, scan_esc _ (by simp), CsvState.scan, if_neg Bool.false_ne_true,
    if_neg (by decide), if_neg (by decide), if_neg (by decide), if_pos rfl]
  rfl

/-- The written rows are read. -/
theorem scan_csvRows (tests : List TestCase) :
    CsvState.scan ⟨rows, [], [], false⟩ (tests.flatMap fun t => t.csvRow ++ ['\n']) =
      ⟨rows ++ tests.map fun t => [readField t.stdin.toList, readField t.expected.toList], [], [], false⟩ := by
  induction tests generalizing rows with
  | nil => rw [List.flatMap_nil, CsvState.scan, List.map_nil, List.append_nil]
  | cons t tests ih =>
    rw [List.flatMap_cons, List.append_assoc, List.singleton_append, TestCase.csvRow, scan_row, ih, List.append_assoc,
      List.singleton_append, List.map_cons]

end Scan

section RoundTrip

/-- The rows of a written file are the header and what the reader gets of every case. -/
theorem csvRows_exportCSV (tests : List TestCase) :
    csvRows (exportCSV tests).toList = ["stdin".toList, "expected".toList] ::
      tests.map fun t => [readField t.stdin.toList, readField t.expected.toList] := by
  have hheader : "stdin,expected".toList = esc "stdin".toList ++ ',' :: esc "expected".toList := by decide
  have hfields : [readField "stdin".toList, readField "expected".toList] = ["stdin".toList, "expected".toList] := by
    decide
  rw [exportCSV, String.toList_ofList, intercalate_concat (List.cons_ne_nil _ _), List.flatMap_cons, List.flatMap_map,
    hheader, List.append_assoc, List.singleton_append, csvRows, scan_row, scan_csvRows, hfields]
  rfl

/-- A written file is read as what the reader gets of every case. -/
theorem parseCSV_exportCSV (tests : List TestCase) :
    parseCSV (exportCSV tests) =
      tests.filterMap fun t => rowCase [readField t.stdin.toList, readField t.expected.toList] := by
  have hheader : isHeader "stdin".toList = true := by decide
  rw [parseCSV, csvRows_exportCSV]
  change List.filterMap rowCase (if isHeader "stdin".toList then _ else _) = _
  rw [if_pos hheader, List.filterMap_map]
  rfl

/-- The field has no carriage return, or it is quoted. -/
def KeepsReturns (s : String) : Prop := '\r' ∈ s.toList → needsQuotes s.toList = true

instance (s : String) : Decidable (KeepsReturns s) := inferInstanceAs (Decidable (_ → _))

/-- A field is read as it was written exactly if its carriage returns are quoted. -/
theorem readField_eq_self_iff (s : String) : readField s.toList = s.toList ↔ KeepsReturns s := by
  rw [readField, KeepsReturns]
  split_ifs with hquotes
  · simp [hquotes]
  · rw [List.filter_eq_self]
    constructor
    · intro hnone hreturn
      exact absurd (hnone '\r' hreturn) (by decide)
    · intro hkept c hc
      have hne : c ≠ '\r' := fun heq => hquotes (hkept (heq ▸ hc))
      exact decide_eq_true hne

/-- The case of a row with two cells. -/
theorem rowCase_pair (stdin expected : List Char) :
    rowCase [stdin, expected] =
      if stdin = [] ∧ expected = [] then none else some (String.ofList stdin, String.ofList expected) := rfl

/-- A case is read as it was written exactly if its fields are. -/
theorem rowCase_eq_iff {t : TestCase} (h : t.stdin ≠ "" ∨ t.expected ≠ "") :
    rowCase [readField t.stdin.toList, readField t.expected.toList] = some (t.stdin, t.expected) ↔
      KeepsReturns t.stdin ∧ KeepsReturns t.expected := by
  have hnonempty : ¬ (t.stdin.toList = [] ∧ t.expected.toList = []) := by
    simpa [or_iff_not_imp_left] using h
  have hread {text : List Char} {s : String} (heq : String.ofList text = s) : text = s.toList := by
    rw [← heq, String.toList_ofList]
  rw [← readField_eq_self_iff, ← readField_eq_self_iff, rowCase_pair]
  constructor
  · intro hcase
    split_ifs at hcase
    have hfields := Prod.mk.inj (Option.some.inj hcase)
    exact ⟨hread hfields.1, hread hfields.2⟩
  · rintro ⟨hstdin, hexpected⟩
    rw [hstdin, hexpected, if_neg hnonempty, String.ofList_toList, String.ofList_toList]

/-- For all cases of which none is empty: a written file is read as these cases exactly if every field with a carriage
return has a quote, a comma or a newline too. -/
theorem parseCSV_exportCSV_iff (tests : List TestCase) (h : ∀ t ∈ tests, t.stdin ≠ "" ∨ t.expected ≠ "") :
    parseCSV (exportCSV tests) = tests.map (fun t => (t.stdin, t.expected)) ↔
      ∀ t ∈ tests, KeepsReturns t.stdin ∧ KeepsReturns t.expected := by
  rw [parseCSV_exportCSV, List.filterMap_eq_map_iff_forall_eq_some]
  exact forall₂_congr fun t ht => rowCase_eq_iff (h t ht)

/-- A case with a quoted carriage return is read as it was written. -/
theorem parseCSV_exportCSV_quoted :
    parseCSV (exportCSV [askedCase "stdin" "a,\r\n\"b\""]) = [("", "a,\r\n\"b\"")] := by
  refine (parseCSV_exportCSV_iff [askedCase "stdin" "a,\r\n\"b\""] ?_).mpr ?_
  · decide
  · decide

/-- A carriage return that is not quoted is lost. -/
theorem carriage_return_lost :
    parseCSV (exportCSV [askedCase "a" "x\ry"]) = [("", "xy")] ∧
      ¬ ∀ tests : List TestCase, (∀ t ∈ tests, t.stdin ≠ "" ∨ t.expected ≠ "") →
        parseCSV (exportCSV tests) = tests.map fun t => (t.stdin, t.expected) := by
  have hread : parseCSV (exportCSV [askedCase "a" "x\ry"]) = [("", "xy")] := by decide +kernel
  refine ⟨hread, fun hall => ?_⟩
  have hkept := hall [askedCase "a" "x\ry"] (by decide)
  rw [hread] at hkept
  exact absurd hkept (by decide)

end RoundTrip

end ZeroCode.Web
