import Mathlib.Data.List.Sort
import ZeroCode.Api.Submission
import ZeroCode.Core.Ulid
import ZeroCode.Foundation.Fallible

/-!
# The read paths

A client reads a submission by its token, a page of the list, or the members of a batch.
Each of the three turns rows into submissions and submissions into views, which say beside
the status whether it is a judgement about the code. Rows of one age may come in any order
in a page; a batch breaks such ties by the texts of the tokens.
-/

namespace ZeroCode.Api

open ZeroCode.Core ZeroCode.Foundation ZeroCode.Worker

/-- The submission of a row. -/
def readRow (r : Row) : Except ApiError Submission :=
  (parseStatus r.status r.statusDetail).map fun status =>
    { token := r.token
      languageId := r.languageId
      status := status
      limits := r.claimedJob.limits
      stdout := r.stdout
      stderr := r.stderr
      compileOutput := r.compileOutput
      exitCode := r.exitCode
      signal := r.signal.map Signal.fromRaw
      cpuTime := r.cpuTime
      compileTime := r.compileTime
      wallTime := r.wallTime
      memoryKb := r.memoryKb
      createdAt := r.createdAt
      finishedAt := r.finishedAt }

/-- The page is one of those a list query may return: the newest rows first, from an offset on. -/
def ListsSubmissions (rows : List Row) (statusFilter : Option String) (limit offset : ℕ) (items : List Submission) :
    Prop :=
  ∃ order : List Row,
    order.Perm (rows.filter fun r => statusFilter.all fun text => r.status.text == text) ∧
      order.Pairwise (fun a b => b.createdAt ≤ a.createdAt) ∧
        ((order.drop offset).take limit).mapM readRow = .ok items

/-- The order of the members of a batch. -/
def Row.batchLe (a b : Row) : Prop :=
  a.createdAt < b.createdAt ∨ a.createdAt = b.createdAt ∧ a.token.text ≤ b.token.text

instance : DecidableRel Row.batchLe := fun a b =>
  inferInstanceAs (Decidable (a.createdAt < b.createdAt ∨ a.createdAt = b.createdAt ∧ a.token.text ≤ b.token.text))

/-- The rows of a batch, in the order of the query. -/
def batchRows (rows : List Row) (batchId : String) : List Row :=
  (rows.filter fun r => r.batchId == some batchId).insertionSort Row.batchLe

/-- The submissions of a batch. -/
def listBatch (rows : List Row) (batchId : String) : Except ApiError (List Submission) :=
  (batchRows rows batchId).mapM readRow

/-- The wire shape of a submission. Outputs are payloads, or texts in base64. -/
structure SubmissionView (P : Type) where
  token : Token
  languageId : ℕ
  status : Status
  verdict : Bool
  limits : ResourceLimits
  stdout : Option P
  stderr : Option P
  compileOutput : Option P
  exitCode : Option Int
  signal : Option Signal
  time : Option ℚ
  compileTime : Option ℚ
  wallTime : Option ℚ
  memory : Option ℕ
  createdAt : ℚ
  finishedAt : Option ℚ
  deriving DecidableEq, Repr

/-- The view of a submission, with its outputs in the given form. -/
def SubmissionView.of {P : Type} (present : Bytes → P) (s : Submission) : SubmissionView P where
  token := s.token
  languageId := s.languageId
  status := s.status
  verdict := s.status.isVerdict
  limits := s.limits
  stdout := s.stdout.map present
  stderr := s.stderr.map present
  compileOutput := s.compileOutput.map present
  exitCode := s.exitCode
  signal := s.signal
  time := s.cpuTime
  compileTime := s.compileTime
  wallTime := s.wallTime
  memory := s.memoryKb
  createdAt := s.createdAt
  finishedAt := s.finishedAt

/-- The submission appears in the response of some read of the table. -/
inductive Reads (rows : List Row) (s : Submission) : Prop
  | get (token : Token) (h : fetchSubmission rows token = .ok (some s))
  | list (statusFilter : Option String) (limit offset : ℕ) (items : List Submission)
    (h : ListsSubmissions rows statusFilter limit offset items) (hitem : s ∈ items)
  | batch (batchId : String) (items : List Submission) (h : listBatch rows batchId = .ok items) (hitem : s ∈ items)

/-- Reading by token reads the row with that token. -/
theorem fetchSubmission_eq (rows : List Row) (token : Token) :
    fetchSubmission rows token =
      match rows.find? fun r => r.token == token with
      | none => .ok none
      | some r => (readRow r).map some := by
  unfold fetchSubmission readRow
  cases rows.find? fun r => r.token == token with
  | none => rfl
  | some r =>
    dsimp only
    cases parseStatus r.status r.statusDetail <;> rfl

/-- Every item of a list of rows that could be read is the submission of one of them. -/
theorem exists_row_of_mapM {rows : List Row} {items : List Submission} (h : rows.mapM readRow = .ok items)
    {s : Submission} (hs : s ∈ items) : ∃ r ∈ rows, readRow r = .ok s :=
  exists_of_forall₂ (mapM_eq_ok_iff.mp h).flip hs

/-- Rows whose status can be read can all be read, each with its token. -/
theorem exists_items_of_rows {rows : List Row}
    (hrows : ∀ r ∈ rows, ∃ status, parseStatus r.status r.statusDetail = .ok status) :
    ∃ items, rows.mapM readRow = .ok items ∧ items.map Submission.token = rows.map Row.token := by
  induction rows with
  | nil => exact ⟨[], rfl, rfl⟩
  | cons r rest ih =>
    obtain ⟨items, hitems, htokens⟩ := ih fun r' hr' => hrows r' (List.mem_cons_of_mem r hr')
    obtain ⟨status, hstatus⟩ := hrows r List.mem_cons_self
    obtain ⟨sub, hread, htoken⟩ : ∃ sub, readRow r = .ok sub ∧ sub.token = r.token := by
      rw [readRow, hstatus]
      exact ⟨_, rfl, rfl⟩
    refine ⟨sub :: items, ?_, ?_⟩
    · rw [List.mapM_cons, hread, hitems]
      rfl
    · rw [List.map_cons, List.map_cons, htoken, htokens]

/-- Whatever a read shows is the submission of a row. -/
theorem Reads.exists_row {rows : List Row} {s : Submission} (h : Reads rows s) : ∃ r ∈ rows, readRow r = .ok s := by
  cases h with
  | get token h =>
    rw [fetchSubmission_eq] at h
    split at h
    · cases h
    · rename_i r hfind
      obtain ⟨sub, hread, hsome⟩ := map_eq_ok_iff.mp h
      cases hsome
      exact ⟨r, List.mem_of_find?_eq_some hfind, hread⟩
  | list statusFilter limit offset items h hitem =>
    obtain ⟨order, hperm, _, hpage⟩ := h
    obtain ⟨r, hr, hread⟩ := exists_row_of_mapM hpage hitem
    have horder : r ∈ order := List.mem_of_mem_drop (List.mem_of_mem_take hr)
    exact ⟨r, List.mem_of_mem_filter (hperm.mem_iff.mp horder), hread⟩
  | batch batchId items h hitem =>
    obtain ⟨r, hr, hread⟩ := exists_row_of_mapM h hitem
    exact ⟨r, List.mem_of_mem_filter ((List.mem_insertionSort _).mp hr), hread⟩

end ZeroCode.Api
