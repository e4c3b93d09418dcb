import ZeroCode.Api.Views
import ZeroCode.Core.Payload
import ZeroCode.Foundation.Fallible

/-!
# The view of a batch

The endpoint of a batch sends the views of its members, in the order of the query, with a
count of them by status. It reads no flag for base64, so the outputs are payloads always.
-/

namespace ZeroCode.Api

open ZeroCode.Core ZeroCode.Foundation ZeroCode.Worker

/-- The members of a batch by status. -/
structure BatchSummary where
  total : ℕ
  queued : ℕ
  processing : ℕ
  accepted : ℕ
  failed : ℕ
  deriving DecidableEq, Repr

/-- Count one more member. -/
def BatchSummary.count (s : BatchSummary) : Status → BatchSummary
  | .queued => { s with queued := s.queued + 1 }
  | .processing => { s with processing := s.processing + 1 }
  | .accepted => { s with accepted := s.accepted + 1 }
  | _ => { s with failed := s.failed + 1 }

/-- Count the members of a batch. -/
def summarise (subs : List Submission) : BatchSummary :=
  subs.foldl (fun s sub => s.count sub.status) ⟨subs.length, 0, 0, 0, 0⟩

/-- The wire shape of a batch. -/
structure BatchView where
  batchId : String
  items : List (SubmissionView Json)
  summary : BatchSummary

variable (isUlid : String → Bool) (engine : NoPadEngine)

/-- A submission as it is sent without base64. -/
def SubmissionView.plain (s : Submission) : SubmissionView Json :=
  SubmissionView.of (fun bytes => Payload.serialize engine ⟨bytes⟩) s

/-- The endpoint of a batch. -/
def getBatch (rows : List Row) (batchId : String) : Except ApiError BatchView :=
  if isUlid batchId then
    match listBatch rows batchId with
    | .error e => .error e
    | .ok [] => .error .notFound
    | .ok subs => .ok ⟨batchId, subs.map (SubmissionView.plain engine), summarise subs⟩
  else .error (.validation "batch_id must be a ULID")

/-- Counting one more member keeps the total, and adds one to the counts. -/
theorem BatchSummary.count_total (s : BatchSummary) (status : Status) :
    (s.count status).total = s.total ∧
      (s.count status).queued + (s.count status).processing + (s.count status).accepted + (s.count status).failed =
        s.queued + s.processing + s.accepted + s.failed + 1 := by
  cases status <;> refine ⟨rfl, ?_⟩ <;> simp only [BatchSummary.count] <;> omega

/-- Every member of a batch is counted once. -/
theorem summarise_total (subs : List Submission) :
    (summarise subs).total = subs.length ∧
      (summarise subs).queued + (summarise subs).processing + (summarise subs).accepted + (summarise subs).failed =
        subs.length := by
  have hcount (s : BatchSummary) : (subs.foldl (fun s sub => s.count sub.status) s).total = s.total ∧
      (subs.foldl (fun s sub => s.count sub.status) s).queued +
          (subs.foldl (fun s sub => s.count sub.status) s).processing +
          (subs.foldl (fun s sub => s.count sub.status) s).accepted +
          (subs.foldl (fun s sub => s.count sub.status) s).failed =
        s.queued + s.processing + s.accepted + s.failed + subs.length := by
    induction subs generalizing s with
    | nil => exact ⟨rfl, rfl⟩
    | cons sub rest ih =>
      obtain ⟨htotal, hsum⟩ := s.count_total sub.status
      obtain ⟨ihtotal, ihsum⟩ := ih (s.count sub.status)
      rw [List.foldl_cons, List.length_cons]
      exact ⟨ihtotal.trans htotal, by omega⟩
  obtain ⟨htotal, hsum⟩ := hcount ⟨subs.length, 0, 0, 0, 0⟩
  exact ⟨htotal, by simpa [summarise] using hsum⟩

variable {isUlid engine}

/-- As many members are counted as pending as have a status that is not terminal. -/
theorem summarise_pending (subs : List Submission) :
    (summarise subs).queued + (summarise subs).processing = subs.countP fun sub => !sub.status.isTerminal := by
  have hcount (s : BatchSummary) : (subs.foldl (fun s sub => s.count sub.status) s).queued +
      (subs.foldl (fun s sub => s.count sub.status) s).processing =
        s.queued + s.processing + subs.countP fun sub => !sub.status.isTerminal := by
    induction subs generalizing s with
    | nil => rfl
    | cons sub rest ih =>
      have hone : (s.count sub.status).queued + (s.count sub.status).processing =
          s.queued + s.processing + if (!sub.status.isTerminal) = true then 1 else 0 := by
        cases sub.status <;> simp only [BatchSummary.count, Status.isTerminal] <;> simp <;> omega
      rw [List.foldl_cons, ih, List.countP_cons, hone]
      omega
  simpa [summarise] using hcount ⟨subs.length, 0, 0, 0, 0⟩

/-- A batch that is sent has its submissions in the order of the query, and counts them. -/
theorem exists_subs_of_getBatch {rows : List Row} {batchId : String} {view : BatchView}
    (h : getBatch isUlid engine rows batchId = .ok view) :
    ∃ subs, listBatch rows batchId = .ok subs ∧ view.items = subs.map (SubmissionView.plain engine) ∧
      view.summary = summarise subs := by
  unfold getBatch at h
  split at h
  · split at h
    · cases h
    · cases h
    · rename_i subs _ hsubs
      cases h
      exact ⟨subs, hsubs, rfl, rfl⟩
  · cases h

/-- The items of a batch are the views of its rows, in the order of the query. -/
theorem forall₂_of_getBatch {rows : List Row} {batchId : String} {view : BatchView}
    (h : getBatch isUlid engine rows batchId = .ok view) :
    List.Forall₂ (fun r item => ∃ s, readRow r = .ok s ∧ item = SubmissionView.plain engine s)
      (batchRows rows batchId) view.items := by
  obtain ⟨subs, hsubs, hitems, _⟩ := exists_subs_of_getBatch h
  rw [hitems, List.forall₂_map_right_iff]
  refine (mapM_eq_ok_iff.mp hsubs).imp fun r s hread => ?_
  exact ⟨s, hread, rfl⟩

end ZeroCode.Api
