import ZeroCode.Api.StatusColumns
import ZeroCode.Web.OutputText

/-!
# Stopping at a failure

A run of the panel polls its batch until nothing is pending. Asked to stop at a failure, it
aborts its own signal as soon as the view has an item of a kind that is none of `queued`,
`processing` and `accepted`; the loop notices that when it is about to ask again, unless
nothing is pending any more and it has returned. The marks of the cases have no part in
this: a case without an expected output stops the run by such a kind without being marked
as failed.
-/

namespace ZeroCode.Web

open ZeroCode.Api ZeroCode.Core ZeroCode.Foundation ZeroCode.Worker

/-- A view of a batch on the side of the client. -/
structure ClientBatch where
  items : List ClientSubmission
  summary : BatchSummary

/-- A case without the results of an earlier run. -/
def TestCase.reset (t : TestCase) : TestCase where
  id := t.id
  stdin := t.stdin
  expected := t.expected
  status := none
  statusDetail := none
  stdout := none
  stderr := none
  compileOutput := none
  time := none
  memory := none
  exitCode := none
  token := none
  passed := none

/-- The case has an input or an expected output. -/
def TestCase.isReal (t : TestCase) : Bool := decide (0 < t.stdin.length) || decide (0 < t.expected.length)

/-- Pair the real cases with the tokens, in order. -/
def pairTokens : List TestCase → List String → List TestCase
  | [], _ => []
  | t :: rest, tokenIds =>
    if t.isReal then { t with token := tokenIds.head?, status := some "queued" } :: pairTokens rest tokenIds.tail
    else t :: pairTokens rest tokenIds

/-- What a run changes: the cases, and the signal to stop. -/
structure PanelRun where
  tests : List TestCase
  aborted : Bool

/-- The beginning of a run with the acknowledged tokens, if there is a real case. -/
def startRun (tests : List TestCase) (tokenIds : List String) : Option PanelRun :=
  if tests.any TestCase.isReal then some ⟨pairTokens (tests.map TestCase.reset) tokenIds, false⟩ else none

/-- How far the polling is. -/
inductive Polled
  | asking
  | resolved
  | rejected
  deriving DecidableEq, Repr

/-- Poll a batch that sends these views: ask for the next one unless the signal is aborted, hand it on, and return
when nothing is pending. An abort while a view is handed on comes before the pause listens to the signal, and is seen
after the pause. -/
def pollBatch (onUpdate : ClientBatch → PanelRun → PanelRun) : List ClientBatch → PanelRun → PanelRun × Polled
  | [], run => (run, if run.aborted then .rejected else .asking)
  | view :: rest, run =>
    if run.aborted then (run, .rejected)
    else if view.summary.queued + view.summary.processing = 0 then (onUpdate view run, .resolved)
    else pollBatch onUpdate rest (onUpdate view run)

section Run

variable (toLowerCase : String → String) (mode : ComparisonMode) (tokenIds : List String)

/-- The item is of a kind other than queued, in progress and accepted. -/
def ClientSubmission.erred (sub : ClientSubmission) : Bool :=
  let k := statusKind toLowerCase sub.status
  k != "queued" && k != "processing" && k != "accepted"

/-- What becomes of a run by a view. -/
def PanelRun.onUpdate (stopOnFail : Bool) (view : ClientBatch) (run : PanelRun) : PanelRun where
  tests := run.tests.map fun t => t.applyView toLowerCase mode view.items tokenIds
  aborted := run.aborted || (stopOnFail && view.items.any fun sub => sub.erred toLowerCase)

/-- A run of the cases with the acknowledged tokens, as far as the views go. -/
def runAll (stopOnFail : Bool) (tests : List TestCase) (views : List ClientBatch) : Option (PanelRun × Polled) :=
  (startRun tests tokenIds).map (pollBatch (PanelRun.onUpdate toLowerCase mode tokenIds stopOnFail) views)

variable (isUlid : String → Bool) (engine : NoPadEngine) (batchId : String)

/-- The view was sent for the batch, and received. -/
def Delivered (view : ClientBatch) : Prop :=
  ∃ rows sent, getBatch isUlid engine rows batchId = .ok sent ∧ List.Forall₂ Received sent.items view.items ∧
    view.summary = sent.summary

variable {toLowerCase mode tokenIds isUlid engine batchId}

/-- While it asks for more, the polling has seen no abort, and goes on with the next views as it would have begun. -/
theorem pollBatch_append {onUpdate : ClientBatch → PanelRun → PanelRun} {views : List ClientBatch}
    {start run : PanelRun} (h : pollBatch onUpdate views start = (run, .asking)) :
    run.aborted = false ∧ ∀ more, pollBatch onUpdate (views ++ more) start = pollBatch onUpdate more run := by
  induction views generalizing start with
  | nil =>
    rw [pollBatch] at h
    cases haborted : start.aborted with
    | true =>
      rw [haborted] at h
      cases h
    | false =>
      rw [haborted] at h
      cases h
      exact ⟨haborted, fun more => rfl⟩
  | cons view rest ih =>
    rw [pollBatch] at h
    split at h
    · cases h
    · split at h
      · cases h
      · rename_i hgoing hpending
        obtain ⟨haborted, hmore⟩ := ih h
        refine ⟨haborted, fun more => ?_⟩
        rw [List.cons_append, pollBatch, if_neg hgoing, if_neg hpending, hmore]

/-- One more view ends the polling with an abort exactly if something is pending and an item of it has erred. -/
theorem pollBatch_view (stopOnFail : Bool) (view : ClientBatch) {run : PanelRun} (h : run.aborted = false) :
    (pollBatch (PanelRun.onUpdate toLowerCase mode tokenIds stopOnFail) [view] run).1 =
        PanelRun.onUpdate toLowerCase mode tokenIds stopOnFail view run ∧
      ((pollBatch (PanelRun.onUpdate toLowerCase mode tokenIds stopOnFail) [view] run).2 = .rejected ↔
        view.summary.queued + view.summary.processing ≠ 0 ∧ stopOnFail = true ∧
          ∃ sub ∈ view.items, sub.erred toLowerCase = true) := by
  have hsignal : (PanelRun.onUpdate toLowerCase mode tokenIds stopOnFail view run).aborted = true ↔
      stopOnFail = true ∧ ∃ sub ∈ view.items, sub.erred toLowerCase = true := by
    simp [PanelRun.onUpdate, h]
  rw [pollBatch, if_neg (by simp [h])]
  split
  · rename_i hdone
    exact ⟨rfl, (fun hrejected => by cases hrejected), fun hpending => absurd hdone hpending.1⟩
  · rename_i hpending
    rw [← hsignal]
    refine ⟨rfl, ?_⟩
    rw [pollBatch]
    cases (PanelRun.onUpdate toLowerCase mode tokenIds stopOnFail view run).aborted with
    | true => exact ⟨fun _ => ⟨hpending, rfl⟩, fun _ => rfl⟩
    | false => exact ⟨(fun hrejected => by cases hrejected), fun haborted => absurd haborted.2 Bool.false_ne_true⟩

/-- The client has the kind of the status that was sent. -/
theorem kind_of_received {sent : SubmissionView Json} {item : ClientSubmission} (h : Received sent item) :
    ∃ detail, item.status = .object (encodeStatusColumns sent.status).1 detail := by
  obtain ⟨kind, detail, hitem, hsent⟩ := h.status
  rw [← toValue_encodeStatusColumns] at hsent
  refine ⟨detail, hitem.trans ?_⟩
  cases hcolumn : (encodeStatusColumns sent.status).2 with
  | none =>
    rw [hcolumn] at hsent
    have hhead := (List.cons.inj (Json.object.inj hsent)).1
    rw [Json.string.inj (congrArg Prod.snd hhead)]
  | some d =>
    rw [hcolumn] at hsent
    have hhead := (List.cons.inj (Json.object.inj hsent)).1
    rw [Json.string.inj (congrArg Prod.snd hhead)]

/-- The client shows an item as pending exactly if its status is not terminal. -/
theorem pending_iff_of_received {sent : SubmissionView Json} {item : ClientSubmission} (h : Received sent item) :
    item.Pending toLowerCase ↔ sent.status.isTerminal = false := by
  obtain ⟨detail, hitem⟩ := kind_of_received h
  rw [ClientSubmission.Pending, hitem]
  cases sent.status with
  | timeLimitExceeded kind => cases kind <;> simp [encodeStatusColumns, statusKind, Status.isTerminal]
  | _ => simp [encodeStatusColumns, statusKind, Status.isTerminal]

/-- The counts of a delivered view say whether some item of it is pending. -/
theorem pending_iff_of_delivered {view : ClientBatch} (h : Delivered isUlid engine batchId view) :
    view.summary.queued + view.summary.processing ≠ 0 ↔ ∃ sub ∈ view.items, sub.Pending toLowerCase := by
  obtain ⟨rows, sent, hsent, hreceived, hsummary⟩ := h
  obtain ⟨subs, _, hitems, hcounted⟩ := exists_subs_of_getBatch hsent
  rw [hitems, List.forall₂_map_left_iff] at hreceived
  rw [hsummary, hcounted, summarise_pending, Nat.ne_zero_iff_zero_lt, List.countP_pos_iff]
  constructor
  · rintro ⟨sub, hsub, hopen⟩
    obtain ⟨item, hitem, hreceived⟩ := exists_of_forall₂ hreceived hsub
    have hstatus : (SubmissionView.plain engine sub).status.isTerminal = false := by
      simpa [SubmissionView.plain, SubmissionView.of] using hopen
    exact ⟨item, hitem, (pending_iff_of_received hreceived).mpr hstatus⟩
  · rintro ⟨item, hitem, hopen⟩
    obtain ⟨sub, hsub, hreceived⟩ := exists_of_forall₂ hreceived.flip hitem
    have hstatus := (pending_iff_of_received hreceived).mp hopen
    exact ⟨sub, hsub, by simpa [SubmissionView.plain, SubmissionView.of] using hstatus⟩

/-- A case with an expected output whose item has erred is marked as failed. -/
theorem TestCase.passed_of_erred {t : TestCase} {items : List ClientSubmission} {sub : ClientSubmission}
    (hitem : t.item items tokenIds = some sub) (hexpected : t.expected ≠ "") (herred : sub.erred toLowerCase = true) :
    (t.applyView toLowerCase mode items tokenIds).passed = some .fail := by
  have hlength : t.expected.length ≠ 0 := fun hzero => hexpected (by simpa using hzero)
  simp only [ClientSubmission.erred, Bool.and_eq_true, bne_iff_ne] at herred
  obtain ⟨⟨hqueued, hprocessing⟩, haccepted⟩ := herred
  rw [TestCase.passed_applyView hitem, grade, if_neg (not_or.mpr ⟨hqueued, hprocessing⟩), if_neg hlength,
    if_pos haccepted]

/-- A view leaves the token and the expected output of a case. -/
theorem TestCase.item_applyView (t : TestCase) (items : List ClientSubmission) :
    (t.applyView toLowerCase mode items tokenIds).item items tokenIds = t.item items tokenIds ∧
      (t.applyView toLowerCase mode items tokenIds).expected = t.expected := by
  have hkept : (t.applyView toLowerCase mode items tokenIds).token = t.token ∧
      (t.applyView toLowerCase mode items tokenIds).expected = t.expected := by
    unfold TestCase.applyView
    split <;> exact ⟨rfl, rfl⟩
  rw [TestCase.item, hkept.1]
  exact ⟨rfl, hkept.2⟩

/-- In a run that stops at failures, over any cases and any views: the polling is aborted after a view only if an item
of it is pending and some case has finished as a failure or an error, and it is whenever an item of it is pending and
another one has erred; and a case with an expected output whose item has erred is marked as failed. -/
theorem stops_at_errors {tests : List TestCase} {run : PanelRun} {views : List ClientBatch} {view : ClientBatch}
    (hdelivered : ∀ v ∈ views ++ [view], Delivered isUlid engine batchId v)
    (hasking : runAll toLowerCase mode tokenIds true tests views = some (run, .asking)) :
    ∃ after, runAll toLowerCase mode tokenIds true tests (views ++ [view]) = some after ∧
      (after.2 = .rejected →
        (∃ sub ∈ view.items, sub.Pending toLowerCase) ∧
          ((∃ t ∈ after.1.tests, t.passed = some .fail) ∨ ∃ sub ∈ view.items, sub.erred toLowerCase = true)) ∧
        ((∃ sub ∈ view.items, sub.Pending toLowerCase) → (∃ sub ∈ view.items, sub.erred toLowerCase = true) →
          after.2 = .rejected) ∧
          ∀ t ∈ after.1.tests, ∀ sub, t.item view.items tokenIds = some sub → t.expected ≠ "" →
            sub.erred toLowerCase = true → t.passed = some .fail := by
  obtain ⟨start, hstart, hpolled⟩ := Option.map_eq_some_iff.mp hasking
  obtain ⟨haborted, hmore⟩ := pollBatch_append hpolled
  have hpending := @pending_iff_of_delivered toLowerCase _ _ _ _
    (hdelivered view (List.mem_append_right views List.mem_cons_self))
  obtain ⟨htests, hrejected⟩ := @pollBatch_view toLowerCase mode tokenIds true view _ haborted
  refine ⟨_, by rw [runAll, hstart, Option.map_some, hmore], ?_⟩
  rw [hrejected, hpending, htests]
  refine ⟨fun h => ⟨h.1, Or.inr h.2.2⟩, fun hopen herred => ⟨hopen, rfl, herred⟩, ?_⟩
  intro t ht sub hsub hexpected herred
  obtain ⟨earlier, _, rfl⟩ := List.mem_map.mp ht
  obtain ⟨hitem, hsame⟩ := @TestCase.item_applyView toLowerCase mode tokenIds earlier view.items
  rw [hitem] at hsub
  rw [hsame] at hexpected
  exact TestCase.passed_of_erred hsub hexpected herred

end Run

/-- A member of the batch that exceeded its memory. -/
def exceededRow : Row := { memberRow "" with status := .memoryLimitExceeded }

/-- A member of the batch that waits. -/
def waitingRow : Row := { (NewSubmission.blank 1).row 1 with batchId := some someBatchId }

/-- Its submission. -/
def exceededSubmission : Submission := { memberSubmission "" with status := .memoryLimitExceeded }

/-- Its submission. -/
def waitingSubmission : Submission where
  token := 1
  languageId := waitingRow.languageId
  status := .queued
  limits := waitingRow.claimedJob.limits
  stdout := none
  stderr := none
  compileOutput := none
  exitCode := none
  signal := none
  cpuTime := none
  compileTime := none
  wallTime := none
  memoryKb := none
  createdAt := 1
  finishedAt := none

/-- The response for the two. -/
def stoppedView : BatchView :=
  ⟨someBatchId, [exceededSubmission, waitingSubmission].map (SubmissionView.plain standardNoPad),
    summarise [exceededSubmission, waitingSubmission]⟩

/-- What the client has of them. -/
def stoppedBatch : ClientBatch where
  items :=
    [{ memberItem "" with status := .object "memory_limit_exceeded" none },
      { token := String.ofList (Token.text 1)
        status := .object "queued" none
        verdict := false
        stdout := none
        stderr := none
        compileOutput := none
        exitCode := none
        wallTime := none
        memory := none }]
  summary := stoppedView.summary

/-- The response is sent. -/
theorem getBatch_stopped :
    getBatch (· == someBatchId) standardNoPad [exceededRow, waitingRow] someBatchId = .ok stoppedView := by
  have hrows : batchRows [exceededRow, waitingRow] someBatchId = [exceededRow, waitingRow] := by decide +kernel
  have hlist : listBatch [exceededRow, waitingRow] someBatchId = .ok [exceededSubmission, waitingSubmission] := by
    rw [listBatch, hrows, mapM_eq_ok_iff]
    exact .cons rfl (.cons rfl .nil)
  rw [getBatch, if_pos (beq_self_eq_true _), hlist]
  rfl

/-- The response is received. -/
theorem delivered_stopped : Delivered (· == someBatchId) standardNoPad someBatchId stoppedBatch := by
  refine ⟨_, stoppedView, getBatch_stopped, .cons ?_ (.cons ?_ .nil), rfl⟩
  · obtain ⟨hmember, _⟩ := List.forall₂_cons.mp (received_memberView "")
    exact {
      token := rfl
      status := ⟨"memory_limit_exceeded", none, rfl, (toValue_encodeStatusColumns .memoryLimitExceeded).symm⟩
      verdict := rfl
      stdout := hmember.stdout
      stderr := hmember.stderr
      compileOutput := hmember.compileOutput
      exitCode := rfl
      wallTime := rfl
      memory := rfl }
  · have missing : ReceivedOutput none none := ⟨fun _ => rfl, fun _ h => by cases h⟩
    exact {
      token := rfl
      status := ⟨"queued", none, rfl, (toValue_encodeStatusColumns .queued).symm⟩
      verdict := rfl
      stdout := missing
      stderr := missing
      compileOutput := missing
      exitCode := rfl
      wallTime := rfl
      memory := rfl }

/-- A case as it was entered. -/
def enteredCase (stdin expected : String) : TestCase := { (askedCase "" expected).reset with stdin := stdin }

/-- The tokens of the two. -/
def stoppedTokens : List String := [String.ofList (Token.text 0), String.ofList (Token.text 1)]

/-- A run of a case with this expected output, and of another. -/
def stoppedRun (expected : String) (views : List ClientBatch) : Option (PanelRun × Polled) :=
  runAll String.toLower .exact stoppedTokens true [enteredCase "1" expected, enteredCase "2" "2"] views

/-- With an expected output, the case that exceeded its memory is marked as failed, and the run is aborted. -/
theorem stops_at_errors_exceeded :
    ∃ after, stoppedRun "1" [stoppedBatch] = some after ∧ after.2 = .rejected ∧
      ∃ t ∈ after.1.tests, t.passed = some .fail := by
  obtain ⟨after, hafter, _, haborts, _⟩ := @stops_at_errors String.toLower .exact stoppedTokens _ _ _
    [enteredCase "1" "1", enteredCase "2" "2"] _ [] stoppedBatch
    (fun v hv => List.mem_singleton.mp hv ▸ delivered_stopped) rfl
  have herred : ∃ sub ∈ stoppedBatch.items, sub.erred String.toLower = true :=
    ⟨_, List.mem_cons_self, by decide +kernel⟩
  have hmarks : ∀ result ∈ stoppedRun "1" [stoppedBatch], ∃ t ∈ result.1.tests, t.passed = some .fail := by
    decide +kernel
  refine ⟨after, hafter, haborts ⟨_, List.mem_cons_of_mem _ List.mem_cons_self, Or.inl rfl⟩ herred, ?_⟩
  exact hmarks after hafter

/-- Without one it is marked as unchecked, and the run is aborted all the same. -/
theorem stopped_without_failure :
    (∃ after, stoppedRun "" [stoppedBatch] = some after ∧ after.2 = .rejected ∧
      ∀ t ∈ after.1.tests, t.passed ≠ some .fail) ∧
      ¬ ∀ (toLowerCase : String → String) (mode : ComparisonMode) (tokenIds : List String) (isUlid : String → Bool)
        (engine : NoPadEngine) (batchId : String) (tests : List TestCase) (run : PanelRun) (views : List ClientBatch)
        (view : ClientBatch), (∀ v ∈ views ++ [view], Delivered isUlid engine batchId v) →
          runAll toLowerCase mode tokenIds true tests views = some (run, .asking) →
            ∃ after, runAll toLowerCase mode tokenIds true tests (views ++ [view]) = some after ∧
              (after.2 = .rejected ↔
                (∃ t ∈ after.1.tests, t.passed = some .fail) ∧ ∃ sub ∈ view.items, sub.Pending toLowerCase) := by
  have hends : ∀ result ∈ stoppedRun "" [stoppedBatch], result.2 = .rejected ∧
      ∀ t ∈ result.1.tests, t.passed ≠ some .fail := by decide +kernel
  refine ⟨?_, fun hall => ?_⟩
  · cases hafter : stoppedRun "" [stoppedBatch] with
    | none => cases hafter
    | some after => exact ⟨after, rfl, hends after hafter⟩
  · obtain ⟨after, hafter, hiff⟩ := hall String.toLower .exact stoppedTokens _ _ _
      [enteredCase "1" "", enteredCase "2" "2"] _ [] stoppedBatch
      (fun v hv => List.mem_singleton.mp hv ▸ delivered_stopped) rfl
    obtain ⟨hrejected, hmarks⟩ := hends after hafter
    obtain ⟨⟨t, ht, hfail⟩, _⟩ := hiff.mp hrejected
    exact hmarks t ht hfail

end ZeroCode.Web
