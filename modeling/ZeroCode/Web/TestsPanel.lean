import ZeroCode.Web.Client

/-!
# The tests of the playground

The panel sends its cases as a batch, keeps the tokens, and pairs every case with the item
at the index of its token whenever a view of the batch arrives. A case with an expected
output is graded as soon as its item is neither queued nor in progress: as failed for every
kind other than `accepted`, and by comparing the outputs for that one.
-/

namespace ZeroCode.Web

open ZeroCode.Api ZeroCode.Core ZeroCode.Foundation

/-- How outputs are compared. -/
inductive ComparisonMode
  | exact
  | trim
  | ignoreWs
  | tokens
  deriving DecidableEq, Repr

/-- What a case is marked with. -/
inductive Passed
  | pass
  | fail
  | unchecked
  deriving DecidableEq, Repr

/-- A case of the panel. What is unset or null is `none`. -/
structure TestCase where
  id : String
  stdin : String
  expected : String
  status : Option String
  statusDetail : Option String
  stdout : Option String
  stderr : Option String
  compileOutput : Option String
  time : Option ℚ
  memory : Option ℕ
  exitCode : Option ℤ
  token : Option String
  passed : Option Passed
  deriving DecidableEq, Repr

/-- White space and line ends, as a regular expression has them. -/
def isSpace (c : Char) : Bool :=
  let n := c.toNat
  (9 ≤ n && n ≤ 13) || (0x2000 ≤ n && n ≤ 0x200a) ||
    [0x20, 0xa0, 0x1680, 0x2028, 0x2029, 0x202f, 0x205f, 0x3000, 0xfeff].contains n

/-- A space or a tab. -/
def isBlank (c : Char) : Bool := c == ' ' || c == '\t'

/-- A line ends here. -/
def endsLine : List Char → Bool
  | '\n' :: _ => true
  | '\r' :: '\n' :: _ => true
  | _ => false

/-- Drop the blanks in front of every line end. -/
def dropBlanks : List Char → List Char
  | [] => []
  | c :: rest =>
    if isBlank c && endsLine (rest.dropWhile isBlank) then dropBlanks rest else c :: dropBlanks rest

/-- Drop the line end at the end. -/
def dropFinalNewline (text : List Char) : List Char :=
  match text.reverse with
  | '\n' :: '\r' :: rest => rest.reverse
  | '\n' :: rest => rest.reverse
  | _ => text

/-- The words of a text. A text without any splits into one empty word. -/
def words (text : List Char) : List (List Char) :=
  match (text.splitOnP isSpace).filter fun word => !word.isEmpty with
  | [] => [[]]
  | found => found

/-- Compare an output with the expected one. -/
def compare (actual expected : String) (mode : ComparisonMode) : Bool :=
  if expected = "" then true
  else
    match mode with
    | .exact => actual == expected
    | .trim => dropFinalNewline (dropBlanks actual.toList) == dropFinalNewline (dropBlanks expected.toList)
    | .ignoreWs => (actual.toList.filter fun c => !isSpace c) == expected.toList.filter fun c => !isSpace c
    | .tokens => words actual.toList == words expected.toList

/-- The text of an output, or none at all. -/
def outputText (output : Option String) : String := (output.map decode).getD ""

section Grading

variable (toLowerCase : String → String) (mode : ComparisonMode)

/-- Grade an output that was expected to be something. -/
def grade (kind stdoutText expected : String) : Option Passed :=
  if kind = "queued" ∨ kind = "processing" then none
  else if expected.length = 0 then some .unchecked
  else if kind ≠ "accepted" then some .fail
  else if compare stdoutText expected mode then some .pass
  else some .fail

/-- The detail of a status, if it is a text that is not empty. -/
def detailText : ApiStatus → Option String
  | .object _ (some (.string detail)) => if detail = "" then none else some detail
  | _ => none

/-- What becomes of a case by its item. -/
def TestCase.applyItem (t : TestCase) (sub : ClientSubmission) : TestCase :=
  { t with
    status := some (statusKind toLowerCase sub.status)
    statusDetail := detailText sub.status
    stdout := some (outputText sub.stdout)
    stderr := some (outputText sub.stderr)
    compileOutput := some (outputText sub.compileOutput)
    time := sub.wallTime
    memory := sub.memory
    exitCode := sub.exitCode
    passed := grade mode (statusKind toLowerCase sub.status) (outputText sub.stdout) t.expected }

variable (items : List ClientSubmission) (tokenIds : List String)

/-- The item at the index of the token of a case. -/
def TestCase.item (t : TestCase) : Option ClientSubmission :=
  (tokenIds.idxOf? (t.token.getD "")).bind fun i => items[i]?

/-- What becomes of a case by a view of the batch. -/
def TestCase.applyView (t : TestCase) : TestCase :=
  match t.item items tokenIds with
  | some sub => t.applyItem toLowerCase mode sub
  | none => t

/-- The kinds that are a judgement about the submitted code. -/
def verdictKinds : List String :=
  ["accepted", "compile_error", "runtime_error", "non_zero_exit", "time_limit_exceeded", "memory_limit_exceeded",
    "output_limit_exceeded"]

/-- The case is marked as passed or failed. -/
def TestCase.Graded (t : TestCase) : Prop := t.passed = some .pass ∨ t.passed = some .fail

/-- The view marks no case whose submission is no verdict, and fails none whose kind is no verdict. -/
structure GradesOnlyVerdicts (tests : List TestCase) : Prop where
  verdict : ∀ t ∈ tests, ∀ sub, t.item items tokenIds = some sub →
    (t.applyView toLowerCase mode items tokenIds).Graded → sub.verdict = true
  faults : ∀ t ∈ tests, ∀ sub kind detail, t.item items tokenIds = some sub → sub.status = .object kind detail →
    kind ∉ verdictKinds → (t.applyView toLowerCase mode items tokenIds).passed ≠ some .fail

/-- The item is shown as queued or in progress. -/
def ClientSubmission.Pending (sub : ClientSubmission) : Prop :=
  statusKind toLowerCase sub.status = "queued" ∨ statusKind toLowerCase sub.status = "processing"

/-- The item is a verdict, and so is its kind. -/
def ClientSubmission.Gradeable (sub : ClientSubmission) : Prop :=
  sub.verdict = true ∧ ∀ kind detail, sub.status = .object kind detail → kind ∈ verdictKinds

variable {toLowerCase mode items tokenIds}

/-- Only an item that is shown as accepted has that kind. -/
theorem kind_of_statusKind_accepted {kind : String} {detail : Option Json}
    (h : statusKind toLowerCase (.object kind detail) = "accepted") : kind = "accepted" := by
  unfold statusKind at h
  dsimp only at h
  split at h <;> first | rfl | exact h | exact absurd h (by decide)

/-- A case with an expected output is graded exactly if its item is not pending. -/
theorem grade_isGraded_iff {kind stdoutText expected : String} (hexpected : expected ≠ "") :
    (grade mode kind stdoutText expected = some .pass ∨ grade mode kind stdoutText expected = some .fail) ↔
      ¬ (kind = "queued" ∨ kind = "processing") := by
  have hlength : expected.length ≠ 0 := fun hzero => hexpected (by simpa using hzero)
  unfold grade
  by_cases hpending : kind = "queued" ∨ kind = "processing"
  · simp [hpending]
  · rw [if_neg hpending, if_neg hlength]
    split
    · simp [hpending]
    · split <;> simp [hpending]

/-- A case without an expected output is not graded. -/
theorem grade_empty {kind stdoutText : String} :
    grade mode kind stdoutText "" ≠ some .pass ∧ grade mode kind stdoutText "" ≠ some .fail := by
  unfold grade
  split <;> simp

/-- A case that passed was accepted. -/
theorem of_grade_pass {kind stdoutText expected : String} (h : grade mode kind stdoutText expected = some .pass) :
    kind = "accepted" := by
  unfold grade at h
  split at h
  · cases h
  · split at h
    · cases h
    · split at h
      · cases h
      · rename_i haccepted
        exact not_not.mp haccepted

/-- A paired case is graded by its item. -/
theorem TestCase.passed_applyView {t : TestCase} {sub : ClientSubmission} (h : t.item items tokenIds = some sub) :
    (t.applyView toLowerCase mode items tokenIds).passed =
      grade mode (statusKind toLowerCase sub.status) (outputText sub.stdout) t.expected := by
  rw [TestCase.applyView, h]
  rfl

/-- For every view and all cases, in every mode: a case is marked only for a verdict, and never as failed for a kind
that is none, exactly if every item that is paired with a case with an expected output is pending, or is a verdict
and of a kind that is one. -/
theorem grades_only_verdicts_iff (tests : List TestCase) :
    GradesOnlyVerdicts toLowerCase mode items tokenIds tests ↔
      ∀ t ∈ tests, ∀ sub, t.item items tokenIds = some sub → t.expected ≠ "" →
        sub.Pending toLowerCase ∨ sub.Gradeable := by
  constructor
  · intro h t ht sub hsub hexpected
    by_cases hpending : sub.Pending toLowerCase
    · exact Or.inl hpending
    · have hgraded : (t.applyView toLowerCase mode items tokenIds).Graded := by
        rw [TestCase.Graded, TestCase.passed_applyView hsub]
        exact (grade_isGraded_iff hexpected).mpr hpending
      refine Or.inr ⟨h.verdict t ht sub hsub hgraded, fun kind detail hstatus => ?_⟩
      by_contra hother
      rcases hgraded with hpass | hfail
      · rw [TestCase.passed_applyView hsub, hstatus] at hpass
        rw [kind_of_statusKind_accepted (of_grade_pass hpass)] at hother
        exact hother List.mem_cons_self
      · exact h.faults t ht sub kind detail hsub hstatus hother hfail
  · intro h
    have ended {t : TestCase} {sub : ClientSubmission} (ht : t ∈ tests) (hsub : t.item items tokenIds = some sub)
        (hgraded : (t.applyView toLowerCase mode items tokenIds).Graded) : sub.Gradeable := by
      unfold TestCase.Graded at hgraded
      rw [TestCase.passed_applyView hsub] at hgraded
      have hexpected : t.expected ≠ "" := by
        intro hnone
        rw [hnone] at hgraded
        exact hgraded.elim grade_empty.1 grade_empty.2
      exact (h t ht sub hsub hexpected).resolve_left ((grade_isGraded_iff hexpected).mp hgraded)
    constructor
    · exact fun t ht sub hsub hgraded => (ended ht hsub hgraded).1
    · intro t ht sub kind detail hsub hstatus hother hfail
      exact hother ((ended ht hsub (Or.inr hfail)).2 kind detail hstatus)

end Grading

/-- A case that waits for its item. -/
def askedCase (token expected : String) : TestCase where
  id := token
  stdin := ""
  expected := expected
  status := some "queued"
  statusDetail := none
  stdout := none
  stderr := none
  compileOutput := none
  time := none
  memory := none
  exitCode := none
  token := some token
  passed := none

/-- The item of a submission that our side could not run. -/
def faultedItem (token : String) : ClientSubmission where
  token := token
  status := .object "sandbox_failure" none
  verdict := false
  stdout := some ""
  stderr := some ""
  compileOutput := some ""
  exitCode := none
  wallTime := none
  memory := none

/-- A submission that the sandbox failed to run is marked as a failed test, although it is no verdict. -/
theorem sandbox_failure_graded :
    ((askedCase "a" "42").applyView String.toLower .exact [faultedItem "a"] ["a"]).passed = some .fail ∧
      ¬ ∀ (toLowerCase : String → String) (mode : ComparisonMode) (items : List ClientSubmission)
        (tokenIds : List String) (tests : List TestCase),
          GradesOnlyVerdicts toLowerCase mode items tokenIds tests := by
  have hfail : ((askedCase "a" "42").applyView String.toLower .exact [faultedItem "a"] ["a"]).passed = some .fail := by
    decide +kernel
  have hitem : (askedCase "a" "42").item [faultedItem "a"] ["a"] = some (faultedItem "a") := by
    have hindex : ["a"].idxOf? ((askedCase "a" "42").token.getD "") = some 0 := by decide +kernel
    rw [TestCase.item, hindex]
    rfl
  refine ⟨hfail, fun hall => ?_⟩
  have hgrades := hall String.toLower .exact [faultedItem "a"] ["a"] [askedCase "a" "42"]
  exact Bool.false_ne_true (hgrades.verdict _ List.mem_cons_self _ hitem (Or.inr hfail))

end ZeroCode.Web
