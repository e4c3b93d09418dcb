import Mathlib.Data.List.ReduceOption
import ZeroCode.Api.StreamRun
import ZeroCode.Web.EventWire
import ZeroCode.Web.LineDiff

/-!
# The output of a run as it comes in

The playground appends every piece of an output to a buffer, shows the lines that are
complete, and shows what is left when the submission finishes. The row that it fetches after
that has the same outputs as a whole, and the display cuts these into lines once more. The
lines on display are those of the whole output, wherever the output was cut into events, the
events into reads, and the bytes into pieces.
-/

namespace ZeroCode.Web

open ZeroCode.Api ZeroCode.Core ZeroCode.Foundation ZeroCode.Worker

/-- The status on display: one of the playground's own, or one that it was told. -/
inductive ShownStatus
  | processing
  | told (status : Option Json)

/-- What a run has on display and in its buffers. -/
structure LiveRun where
  stdoutBuf : List Char
  stderrBuf : List Char
  output : List (List Char)
  stderr : List (List Char)
  status : ShownStatus
  error : Option String
  finished : Bool
  aborted : Bool

/-- A run whose submission is acknowledged. -/
def LiveRun.init : LiveRun := ⟨[], [], [], [], .processing, none, false, false⟩

/-- The text of a piece of output: its `data`, or all of it if there is none. -/
def StreamEvent.chunk (e : StreamEvent) : List Char :=
  match e.json.property "data" with
  | none | some .null => e.raw.toList
  | some data => data.coerced

/-- Show the lines of a buffer that are complete: the lines on display, and what is left of the buffer. -/
def flushLines (buf : List Char) (lines : List (List Char)) : List (List Char) × List Char :=
  let cut := drain ['\n'] buf
  (lines ++ cut.1, cut.2)

/-- Show what is left of a buffer. -/
def flushRest (buf : List Char) (lines : List (List Char)) : List (List Char) :=
  if buf.isEmpty then lines else lines ++ [buf]

/-- What the run does with an event. -/
def LiveRun.onEvent (r : LiveRun) (e : StreamEvent) : LiveRun :=
  if r.aborted then r
  else if e.event = "processing" then { r with status := .processing }
  else if e.event = "stdout" then
    let flushed := flushLines (r.stdoutBuf ++ e.chunk) r.output
    { r with output := flushed.1, stdoutBuf := flushed.2 }
  else if e.event = "stderr" then
    let flushed := flushLines (r.stderrBuf ++ e.chunk) r.stderr
    { r with stderr := flushed.1, stderrBuf := flushed.2 }
  else if e.event = "finished" then
    { r with
      finished := true
      output := flushRest r.stdoutBuf r.output
      stdoutBuf := []
      stderr := flushRest r.stderrBuf r.stderr
      stderrBuf := []
      status := .told (e.json.property "status") }
  else if e.event = "error" then
    { r with error := some ("stream error: " ++ if e.raw = "" then "unknown" else e.raw) }
  else r

/-- The lines of a cut, without the last one if it is empty. -/
def shownLines (lines : List (List Char)) : List (List Char) :=
  if lines.getLast? = some [] then lines.dropLast else lines

/-- What was written to the standard output in an event. -/
def stdoutOf : Event → List Char
  | .stdoutChunk data => data.toList
  | .processing | .stderrChunk _ | .finished _ => []

/-- What was written to the standard error in an event. -/
def stderrOf : Event → List Char
  | .stderrChunk data => data.toList
  | .processing | .stdoutChunk _ | .finished _ => []

/-- Everything that was written to the standard output. -/
def stdoutText (events : List Event) : List Char := events.flatMap stdoutOf

/-- Everything that was written to the standard error. -/
def stderrText (events : List Event) : List Char := events.flatMap stderrOf

section Lines

/-- What is shown at the end are the lines of the whole text. -/
theorem flushRest_drain (text : List Char) :
    flushRest (drain ['\n'] text).2 (drain ['\n'] text).1 = shownLines (text.splitOn '\n') := by
  rw [← drain_symbol, shownLines, List.getLast?_concat, List.dropLast_concat, flushRest]
  cases (drain ['\n'] text).2 <;> simp

end Lines

section Run

/-- Of a text the complete lines are on display, and what is left of it is in the buffer. -/
def Flushed (text : List Char) (lines : List (List Char)) (buf : List Char) : Prop :=
  (lines, buf) = drain ['\n'] text

/-- A piece more is shown as far as it completes lines. -/
theorem Flushed.append {text buf : List Char} {lines : List (List Char)} (h : Flushed text lines buf)
    (piece : List Char) :
    Flushed (text ++ piece) (flushLines (buf ++ piece) lines).1 (flushLines (buf ++ piece) lines).2 := by
  obtain ⟨rfl, rfl⟩ := Prod.mk.inj h
  exact (drain_append (List.cons_ne_nil '\n' []) text piece).symm

/-- A run that has neither finished nor failed shows what was written so far. -/
structure LiveRun.Shows (out err : List Char) (r : LiveRun) : Prop where
  stdout : Flushed out r.output r.stdoutBuf
  stderr : Flushed err r.stderr r.stderrBuf
  error : r.error = none
  aborted : r.aborted = false

/-- The data of a frame that comes of an event. -/
def eventJson : Event → Json
  | .processing => .object []
  | .stdoutChunk data => .object [("data", .string data)]
  | .stderrChunk data => .object [("data", .string data)]
  | .finished status => .object [("status", status.toValue)]

/-- The run has appended what was written in an event, unless it is the end. -/
theorem LiveRun.Shows.onEvent {out err : List Char} {r : LiveRun} (h : r.Shows out err) {event : Event}
    (hopen : ∀ status, event ≠ .finished status) (raw : String) :
    (r.onEvent ⟨(frame (.ok event)).event, eventJson event, raw⟩).Shows (out ++ stdoutOf event)
      (err ++ stderrOf event) := by
  rw [LiveRun.onEvent, if_neg (Bool.eq_false_iff.mp h.aborted)]
  cases event with
  | processing =>
    rw [stdoutOf, stderrOf, List.append_nil, List.append_nil]
    exact ⟨h.stdout, h.stderr, h.error, h.aborted⟩
  | stdoutChunk data =>
    rw [stdoutOf, stderrOf, List.append_nil]
    exact ⟨h.stdout.append _, h.stderr, h.error, h.aborted⟩
  | stderrChunk data =>
    rw [stdoutOf, stderrOf, List.append_nil]
    exact ⟨h.stdout, h.stderr.append _, h.error, h.aborted⟩
  | finished status => exact absurd rfl (hopen status)

/-- A comment changes nothing. -/
theorem LiveRun.onEvent_comment (r : LiveRun) : r.onEvent commentEvent = r := by
  rw [LiveRun.onEvent]
  split
  · rfl
  · rfl

variable {parse : String → Option Json}

/-- The event that the handler gets for it. -/
def deliveredEvent : Option Event → StreamEvent
  | some event => ⟨(frame (.ok event)).event, eventJson event, String.ofList (eventJson event).text⟩
  | none => commentEvent

/-- A run that gets events without an end among them shows what was written. -/
theorem LiveRun.Shows.foldl {out err : List Char} {r : LiveRun} (h : r.Shows out err) {items : List (Option Event)}
    (hopen : ∀ status, some (.finished status) ∉ items) :
    ((items.map deliveredEvent).foldl LiveRun.onEvent r).Shows (out ++ stdoutText items.reduceOption)
      (err ++ stderrText items.reduceOption) := by
  induction items generalizing r out err with
  | nil =>
    rw [List.reduceOption_nil, stdoutText, stderrText, List.flatMap_nil, List.flatMap_nil, List.append_nil,
      List.append_nil]
    exact h
  | cons item rest ih =>
    have hrest : ∀ status, some (.finished status) ∉ rest := fun status hmem =>
      hopen status (List.mem_cons_of_mem item hmem)
    cases item with
    | none =>
      rw [List.map_cons, deliveredEvent, List.foldl_cons, LiveRun.onEvent_comment, List.reduceOption_cons_of_none]
      exact ih h hrest
    | some event =>
      have hevent : ∀ status, event ≠ .finished status := fun status heq =>
        hopen status (heq ▸ List.mem_cons_self)
      have hlast := ih (h.onEvent hevent (String.ofList (eventJson event).text)) hrest
      rw [List.append_assoc, List.append_assoc] at hlast
      exact hlast

/-- The run shows the outputs as a whole and the status that it was told. -/
structure LiveRun.Complete (out err : List Char) (status : Status) (r : LiveRun) : Prop where
  stdout : r.output = shownLines (out.splitOn '\n')
  stderr : r.stderr = shownLines (err.splitOn '\n')
  status : r.status = .told (some status.toValue)
  finished : r.finished = true
  error : r.error = none

/-- At the end the run shows everything. -/
theorem LiveRun.Shows.finish {out err : List Char} {r : LiveRun} (h : r.Shows out err) (status : Status) :
    (r.onEvent (deliveredEvent (some (.finished status)))).Complete out err status := by
  have houtput (text : List Char) {lines : List (List Char)} {buf : List Char} (hflushed : Flushed text lines buf) :
      flushRest buf lines = shownLines (text.splitOn '\n') := by
    obtain ⟨rfl, rfl⟩ := Prod.mk.inj hflushed
    exact flushRest_drain text
  rw [LiveRun.onEvent, if_neg (Bool.eq_false_iff.mp h.aborted)]
  exact ⟨houtput out h.stdout, houtput err h.stderr, rfl, rfl, h.error⟩

end Run

end ZeroCode.Web
