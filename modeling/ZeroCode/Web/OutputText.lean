import ZeroCode.Api.BatchView
import ZeroCode.Api.PayloadModes
import ZeroCode.Web.TestsPanel
import ZeroCode.Worker.Fleet

/-!
# Outputs in the panel

An output is written as bytes, sent as a payload in the view of its batch, and decoded by
the panel before it is compared. A text arrives as it was written exactly if it is not
base64 of a text by chance.
-/

namespace ZeroCode.Web

open ZeroCode.Api ZeroCode.Core ZeroCode.Foundation ZeroCode.Worker

section Path

variable (toLowerCase : String → String) (mode : ComparisonMode)

/-- The row that a case is paired with: the member of the batch at the index of its token. -/
def TestCase.row (rows : List Row) (batchId : String) (tokenIds : List String) (t : TestCase) : Option Row :=
  (tokenIds.idxOf? (t.token.getD "")).bind fun i => (batchRows rows batchId)[i]?

/-- The case has the outputs of the row, as far as they are texts, and its standard output was compared. -/
structure ShowsOutputs (r : Row) (t shown : TestCase) : Prop where
  stdout : ∀ text, r.stdout = some (utf8Bytes text) → shown.stdout = some text
  compared : ∀ text, r.stdout = some (utf8Bytes text) →
    ∃ kind, shown.status = some kind ∧ shown.passed = grade mode kind text t.expected
  stderr : ∀ text, r.stderr = some (utf8Bytes text) → shown.stderr = some text
  compileOutput : ∀ text, r.compileOutput = some (utf8Bytes text) → shown.compileOutput = some text

/-- The text is one of the outputs of the row. -/
def OutputOf (r : Row) (text : String) : Prop :=
  r.stdout = some (utf8Bytes text) ∨ r.stderr = some (utf8Bytes text) ∨ r.compileOutput = some (utf8Bytes text)

variable {toLowerCase mode} {isUlid : String → Bool} {engine : NoPadEngine} {rows : List Row} {batchId : String}
  {sent : BatchView} {items : List ClientSubmission} {tokenIds : List String}

/-- A text is sent as a string, and the client reads what it can of it. -/
theorem outputText_of_received {output : Option Bytes} {received : Option String} {text : String}
    (houtput : output = some (utf8Bytes text))
    (h : ReceivedOutput (output.map fun bytes => Payload.serialize engine ⟨bytes⟩) received) :
    outputText received = decode text := by
  have hstring : Payload.serialize engine ⟨utf8Bytes text⟩ = .string text := by
    rw [Payload.serialize, utf8Text_utf8Bytes]
  rw [houtput, Option.map_some, hstring] at h
  rw [h.2 text rfl]
  rfl

/-- The outputs of a read row are those of its submission. -/
theorem outputs_of_readRow {r : Row} {s : Submission} (h : readRow r = .ok s) :
    s.stdout = r.stdout ∧ s.stderr = r.stderr ∧ s.compileOutput = r.compileOutput := by
  unfold readRow at h
  cases hstatus : parseStatus r.status r.statusDetail with
  | error e =>
    rw [hstatus] at h
    cases h
  | ok status =>
    rw [hstatus] at h
    cases h
    exact ⟨rfl, rfl, rfl⟩

/-- The item of a case was received for the submission of its row. -/
theorem exists_item_of_row (hsent : getBatch isUlid engine rows batchId = .ok sent)
    (hreceived : List.Forall₂ Received sent.items items) {t : TestCase} {r : Row}
    (hrow : t.row rows batchId tokenIds = some r) :
    ∃ s item, readRow r = .ok s ∧ t.item items tokenIds = some item ∧
      Received (SubmissionView.plain engine s) item := by
  obtain ⟨i, hindex, hr⟩ := Option.bind_eq_some_iff.mp hrow
  have hrows := forall₂_of_getBatch hsent
  obtain ⟨hi, hri⟩ := List.getElem?_eq_some_iff.mp hr
  have hsentAt : i < sent.items.length := hrows.length_eq ▸ hi
  have hitemAt : i < items.length := hreceived.length_eq ▸ hsentAt
  obtain ⟨s, hread, hview⟩ := (List.forall₂_iff_get.mp hrows).2 i hi hsentAt
  have hitem := (List.forall₂_iff_get.mp hreceived).2 i hsentAt hitemAt
  refine ⟨s, items[i], ?_, ?_, ?_⟩
  · rw [← hri]
    exact hread
  · rw [TestCase.item, hindex, Option.bind_some, List.getElem?_eq_getElem hitemAt]
  · rw [← hview]
    exact hitem

/-- Every output of its row is decoded for the case. -/
theorem shown_of_row (hsent : getBatch isUlid engine rows batchId = .ok sent)
    (hreceived : List.Forall₂ Received sent.items items) {t : TestCase} {r : Row}
    (hrow : t.row rows batchId tokenIds = some r) (text : String) :
    (r.stdout = some (utf8Bytes text) →
      (t.applyView toLowerCase mode items tokenIds).stdout = some (decode text) ∧
        ∃ kind, (t.applyView toLowerCase mode items tokenIds).status = some kind ∧
          (t.applyView toLowerCase mode items tokenIds).passed = grade mode kind (decode text) t.expected) ∧
      (r.stderr = some (utf8Bytes text) →
        (t.applyView toLowerCase mode items tokenIds).stderr = some (decode text)) ∧
        (r.compileOutput = some (utf8Bytes text) →
          (t.applyView toLowerCase mode items tokenIds).compileOutput = some (decode text)) := by
  obtain ⟨s, item, hread, hitem, hreceivedItem⟩ := exists_item_of_row hsent hreceived hrow
  obtain ⟨hout, herr, hcompile⟩ := outputs_of_readRow hread
  have happly : t.applyView toLowerCase mode items tokenIds = t.applyItem toLowerCase mode item := by
    rw [TestCase.applyView, hitem]
  rw [happly]
  refine ⟨fun h => ?_, fun h => ?_, fun h => ?_⟩
  · have htext := outputText_of_received (hout.trans h) hreceivedItem.stdout
    refine ⟨congrArg some htext, statusKind toLowerCase item.status, rfl, ?_⟩
    rw [← htext]
    rfl
  · exact congrArg some (outputText_of_received (herr.trans h) hreceivedItem.stderr)
  · exact congrArg some (outputText_of_received (hcompile.trans h) hreceivedItem.compileOutput)

/-- For every table, response and list of cases: the panel has and compares the texts that were written exactly if
none of them can be read as base64 of a text. -/
theorem outputs_shown_iff (hsent : getBatch isUlid engine rows batchId = .ok sent)
    (hreceived : List.Forall₂ Received sent.items items) (tests : List TestCase) :
    (∀ t ∈ tests, ∀ r, t.row rows batchId tokenIds = some r →
      ShowsOutputs mode r t (t.applyView toLowerCase mode items tokenIds)) ↔
      ∀ t ∈ tests, ∀ r, t.row rows batchId tokenIds = some r → ∀ text, OutputOf r text → ¬ Ambiguous text := by
  refine forall₂_congr fun t _ => forall₂_congr fun r hrow => ?_
  have hshown := @shown_of_row toLowerCase mode _ _ _ _ _ _ _ hsent hreceived t r hrow
  constructor
  · intro hshows text houtput
    rw [← decode_eq_self_iff]
    obtain ⟨hout, herr, hcompile⟩ := hshown text
    rcases houtput with h | h | h
    · exact Option.some.inj ((hout h).1.symm.trans (hshows.stdout text h))
    · exact Option.some.inj ((herr h).symm.trans (hshows.stderr text h))
    · exact Option.some.inj ((hcompile h).symm.trans (hshows.compileOutput text h))
  · intro hplain
    have hdecode {text : String} (h : OutputOf r text) : decode text = text :=
      (decode_eq_self_iff text).mpr (hplain text h)
    constructor
    · intro text h
      rw [((hshown text).1 h).1, hdecode (Or.inl h)]
    · intro text h
      obtain ⟨kind, hkind, hpassed⟩ := ((hshown text).1 h).2
      rw [hdecode (Or.inl h)] at hpassed
      exact ⟨kind, hkind, hpassed⟩
    · intro text h
      rw [(hshown text).2.1 h, hdecode (Or.inr (Or.inl h))]
    · intro text h
      rw [(hshown text).2.2 h, hdecode (Or.inr (Or.inr h))]

end Path

/-- The identifier of a batch. -/
def someBatchId : String := "01ARZ3NDEKTSV4RRFFQ69G5FAV"

/-- A member of the batch that was accepted with this output. -/
def memberRow (text : String) : Row :=
  { acceptedRow 0 with batchId := some someBatchId, stdout := some (utf8Bytes text) }

/-- Its submission. -/
def memberSubmission (text : String) : Submission where
  token := 0
  languageId := (memberRow text).languageId
  status := .accepted
  limits := (memberRow text).claimedJob.limits
  stdout := some (utf8Bytes text)
  stderr := some []
  compileOutput := none
  exitCode := some 0
  signal := none
  cpuTime := some (asSecs 0)
  compileTime := none
  wallTime := some (asSecs 0)
  memoryKb := some 0
  createdAt := 0
  finishedAt := some 0

/-- The response for a batch of that one member. -/
def memberView (text : String) : BatchView :=
  ⟨someBatchId, [SubmissionView.plain standardNoPad (memberSubmission text)], summarise [memberSubmission text]⟩

/-- What the client has of that member. -/
def memberItem (text : String) : ClientSubmission where
  token := String.ofList (Token.text 0)
  status := .object "accepted" none
  verdict := true
  stdout := some text
  stderr := some ""
  compileOutput := none
  exitCode := some 0
  wallTime := some (asSecs 0)
  memory := some 0

/-- The response is sent. -/
theorem getBatch_memberRow (text : String) :
    getBatch (· == someBatchId) standardNoPad [memberRow text] someBatchId = .ok (memberView text) := by
  have hrows : batchRows [memberRow text] someBatchId = [memberRow text] := rfl
  have hread : readRow (memberRow text) = .ok (memberSubmission text) := rfl
  have hlist : listBatch [memberRow text] someBatchId = .ok [memberSubmission text] := by
    rw [listBatch, hrows, mapM_eq_ok_iff]
    exact .cons hread .nil
  rw [getBatch, if_pos (beq_self_eq_true _), hlist]
  rfl

/-- The response is received. -/
theorem received_memberView (text : String) : List.Forall₂ Received (memberView text).items [memberItem text] := by
  have sent (s : String) : ReceivedOutput (some (Payload.serialize standardNoPad ⟨utf8Bytes s⟩)) (some s) := by
    rw [Payload.serialize, utf8Text_utf8Bytes]
    exact ⟨(fun h => by cases h), fun _ h => congrArg some (Json.string.inj (Option.some.inj h))⟩
  have hkind : snakeCase "Accepted" = "accepted" := by decide +kernel
  have hstatus : Status.accepted.toValue = .object [("kind", .string "accepted")] := by
    simp [Status.toValue, Tagging.toValue, statusTagging, hkind]
  refine .cons ?_ .nil
  exact {
    token := rfl
    status := ⟨"accepted", none, rfl, hstatus⟩
    verdict := rfl
    stdout := sent text
    stderr := sent ""
    compileOutput := ⟨fun _ => rfl, fun _ h => by cases h⟩
    exitCode := rfl
    wallTime := rfl
    memory := rfl }

/-- The case with the token of that member. -/
def memberCase (expected : String) : TestCase := askedCase (String.ofList (Token.text 0)) expected

/-- The case is paired with that member. -/
theorem row_memberCase (text expected : String) :
    (memberCase expected).row [memberRow text] someBatchId [String.ofList (Token.text 0)] = some (memberRow text) := by
  have hindex : [String.ofList (Token.text 0)].idxOf? (String.ofList (Token.text 0)) = some 0 := by decide +kernel
  change ([String.ofList (Token.text 0)].idxOf? (String.ofList (Token.text 0))).bind _ = _
  rw [hindex]
  rfl

/-- Neither the line nor the empty output is base64 of a text. -/
theorem plain_of_line {text : String} (h : OutputOf (memberRow "ok\n") text) : ¬ Ambiguous text := by
  have text_of {bytes : Bytes} {s : String} (hs : utf8Text? bytes = some s) (hbytes : some bytes = some (utf8Bytes text)) :
      text = s := by
    rw [Option.some.inj hbytes, utf8Text_utf8Bytes] at hs
    exact Option.some.inj hs
  rw [← decode_eq_self_iff]
  rcases h with hout | herr | hcompile
  · obtain rfl : text = "ok\n" := text_of (utf8Text_utf8Bytes _) hout
    decide +kernel
  · obtain rfl : text = "" := text_of (by decide +kernel) herr
    decide +kernel
  · cases hcompile

/-- A line is shown and compared as it was written. -/
theorem outputs_shown_line :
    ShowsOutputs .exact (memberRow "ok\n") (memberCase "ok\n")
      ((memberCase "ok\n").applyView String.toLower .exact [memberItem "ok\n"] [String.ofList (Token.text 0)]) := by
  have hshown := (@outputs_shown_iff String.toLower .exact _ _ _ _ _ _ [String.ofList (Token.text 0)]
    (getBatch_memberRow "ok\n") (received_memberView "ok\n") [memberCase "ok\n"]).mpr
  refine hshown (fun t ht r hrow text houtput => ?_) _ List.mem_cons_self _ (row_memberCase "ok\n" "ok\n")
  rw [List.mem_singleton.mp ht, row_memberCase] at hrow
  obtain rfl := Option.some.inj hrow
  exact plain_of_line houtput

/-- A program prints `aGVsbG8=`, which is `hello` in base64. The panel shows `hello`, and the test that expects just
what was printed fails. -/
theorem base64_output_altered :
    ((memberCase "aGVsbG8=").applyView String.toLower .exact [memberItem "aGVsbG8="]
        [String.ofList (Token.text 0)]).stdout = some "hello" ∧
      ((memberCase "aGVsbG8=").applyView String.toLower .exact [memberItem "aGVsbG8="]
        [String.ofList (Token.text 0)]).passed = some .fail ∧
      ¬ ∀ (toLowerCase : String → String) (mode : ComparisonMode) (isUlid : String → Bool) (engine : NoPadEngine)
        (rows : List Row) (batchId : String) (sent : BatchView) (items : List ClientSubmission)
        (tokenIds : List String) (tests : List TestCase),
          getBatch isUlid engine rows batchId = .ok sent → List.Forall₂ Received sent.items items →
            ∀ t ∈ tests, ∀ r, t.row rows batchId tokenIds = some r →
              ShowsOutputs mode r t (t.applyView toLowerCase mode items tokenIds) := by
  have hshown : ((memberCase "aGVsbG8=").applyView String.toLower .exact [memberItem "aGVsbG8="]
      [String.ofList (Token.text 0)]).stdout = some "hello" := by decide +kernel
  refine ⟨hshown, by decide +kernel, fun hall => ?_⟩
  have hshows := hall String.toLower .exact _ _ _ _ _ _ [String.ofList (Token.text 0)] [memberCase "aGVsbG8="]
    (getBatch_memberRow "aGVsbG8=") (received_memberView "aGVsbG8=") _ List.mem_cons_self _
    (row_memberCase "aGVsbG8=" "aGVsbG8=")
  have hsame : some "hello" = some "aGVsbG8=" := hshown.symm.trans (hshows.stdout "aGVsbG8=" rfl)
  exact absurd hsame (by decide)

end ZeroCode.Web
