import Mathlib.Data.List.DropRight
import ZeroCode.Foundation.TextDecoder
import ZeroCode.Foundation.Json
import ZeroCode.Web.TestsPanel

/-!
# The stream of a submission in the client

The client decodes what it has read, appends it to what is left of the text, cuts off the
frames that an empty line ends, and hands an event on for each. The bytes come in pieces
that end anywhere: inside a character, inside a line, between the two newlines. The events
are the same as if all had come in one piece. Only a handler that closes the stream may see
the difference, since the rest of a piece is still handed on after that.
-/

namespace ZeroCode.Web

open ZeroCode.Foundation

/-- An event as the handler gets it. -/
structure StreamEvent where
  event : String
  json : Json
  raw : String

/-- A text without the white space around it. -/
def trim (text : List Char) : List Char := (text.dropWhile isSpace).rdropWhile isSpace

/-- Read a line of a frame into the name of the event and its data. -/
def readLine (fields : List Char × List Char) (ln : List Char) : List Char × List Char :=
  if "event:".toList.isPrefixOf ln then (trim (ln.drop 6), fields.2)
  else if "data:".toList.isPrefixOf ln then
    (fields.1, fields.2 ++ (if fields.2.isEmpty then [] else ['\n']) ++ trim (ln.drop 5))
  else fields

/-- What ends a frame. -/
def frameEnd : List Char := ['\n', '\n']

/-- What the client keeps between two reads: the decoder, what no frame has taken yet, and the events so far. -/
structure StreamReader where
  dec : TextDecoder
  buf : List Char
  events : List StreamEvent

/-- Nothing is read. -/
def StreamReader.init : StreamReader := ⟨.new, [], []⟩

section Stream

variable (parse : String → Option Json)

/-- The event of a frame, if there is anything in it. Data that cannot be parsed is `null` and stays raw. -/
def frameEvent (frame : List Char) : Option StreamEvent :=
  let fields := (frame.splitOn '\n').foldl readLine ("message".toList, [])
  let raw := String.ofList fields.2
  if fields.1.isEmpty && fields.2.isEmpty then none
  else some ⟨String.ofList fields.1, if fields.2.isEmpty then .null else (parse raw).getD .null, raw⟩

/-- Read one piece. -/
def StreamReader.read (r : StreamReader) (value : List UInt8) : StreamReader :=
  let decoded := r.dec.decode value
  let cut := drain frameEnd (r.buf ++ decoded.2)
  ⟨decoded.1, cut.2, r.events ++ cut.1.filterMap (frameEvent parse)⟩

variable (closes : StreamEvent → Bool)

/-- Read the pieces of a stream, as long as no event has made the handler close it. -/
def stream : StreamReader → List (List UInt8) → StreamReader
  | r, [] => r
  | r, value :: rest => if r.events.any closes then r else stream (r.read parse value) rest

variable {parse closes}

/-- The end of a frame is not empty. -/
theorem frameEnd_ne_nil : frameEnd ≠ [] := List.cons_ne_nil '\n' ['\n']

/-- Two pieces are read as one. -/
theorem StreamReader.read_read (r : StreamReader) (x y : List UInt8) :
    (r.read parse x).read parse y = r.read parse (x ++ y) := by
  have hcut := drain_append frameEnd_ne_nil (r.buf ++ (r.dec.decode x).2) ((r.dec.decode x).1.decode y).2
  rw [List.append_assoc] at hcut
  simp only [StreamReader.read, TextDecoder.decode_append, hcut, List.filterMap_append, List.append_assoc]

/-- Nothing is left that could be cut. -/
def StreamReader.Settled (r : StreamReader) : Prop := cutAt frameEnd r.buf = none

/-- Nothing can be cut after a read. -/
theorem StreamReader.settled_read (r : StreamReader) (value : List UInt8) : (r.read parse value).Settled :=
  cutAt_drain frameEnd_ne_nil _

/-- An empty piece changes nothing. -/
theorem StreamReader.read_nil {r : StreamReader} (h : r.Settled) : r.read parse [] = r := by
  have hdecoded : r.dec.decode [] = (r.dec, []) := rfl
  simp only [StreamReader.read, hdecoded, List.append_nil, drain_of_none h, List.filterMap_nil]

/-- Events that were handed on are not taken back. -/
theorem StreamReader.events_read (r : StreamReader) (value : List UInt8) :
    r.events <+: (r.read parse value).events := List.prefix_append _ _

/-- What was read of the pieces is a beginning of them, and all of them unless the handler has closed the stream. -/
theorem stream_eq {r : StreamReader} (h : r.Settled) (chunks : List (List UInt8)) :
    ∃ before after, chunks.flatten = before ++ after ∧ stream parse closes r chunks = r.read parse before ∧
      (after = [] ∨ (stream parse closes r chunks).events.any closes = true) := by
  induction chunks generalizing r with
  | nil => exact ⟨[], [], rfl, (StreamReader.read_nil h).symm, Or.inl rfl⟩
  | cons value rest ih =>
    rw [stream]
    split
    · rename_i hclosed
      exact ⟨[], _, rfl, (StreamReader.read_nil h).symm, Or.inr hclosed⟩
    · obtain ⟨before, after, hparts, hread, hend⟩ := ih (r.settled_read value)
      refine ⟨value ++ before, after, ?_, ?_, hend⟩
      · rw [List.flatten_cons, hparts, List.append_assoc]
      · rw [hread, StreamReader.read_read]

/-- In one piece everything is read. -/
theorem stream_singleton (value : List UInt8) :
    stream parse closes .init [value] = StreamReader.init.read parse value := rfl

/-- However a stream is split, its handler gets a beginning of the events of the whole, and all of them unless it has
closed the stream. -/
theorem events_stream (chunks : List (List UInt8)) :
    (stream parse closes .init chunks).events <+: (stream parse closes .init [chunks.flatten]).events ∧
      ((stream parse closes .init chunks).events.any closes = false →
        (stream parse closes .init chunks).events = (stream parse closes .init [chunks.flatten]).events) := by
  obtain ⟨before, after, hparts, hread, hend⟩ := @stream_eq parse closes StreamReader.init rfl chunks
  rw [stream_singleton, hparts, hread]
  constructor
  · rw [← StreamReader.read_read]
    exact StreamReader.events_read _ _
  · intro hopen
    rcases hend with rfl | hclosed
    · rw [List.append_nil]
    · rw [hread, hopen] at hclosed
      cases hclosed

/-- For every stream and every way of splitting it, the handler gets the same events as if it came in one piece. A
handler that closes the stream at some event gets a beginning of them, and all of them unless it has closed it. -/
theorem stream_chunks (parse : String → Option Json) (chunks : List (List UInt8)) :
    (stream parse (fun _ => false) .init chunks).events =
        (stream parse (fun _ => false) .init [chunks.flatten]).events ∧
      ∀ closes : StreamEvent → Bool,
        (stream parse closes .init chunks).events <+: (stream parse closes .init [chunks.flatten]).events ∧
          ((stream parse closes .init chunks).events.any closes = false →
            (stream parse closes .init chunks).events = (stream parse closes .init [chunks.flatten]).events) := by
  refine ⟨(events_stream chunks).2 ?_, fun closes => events_stream chunks⟩
  exact List.any_eq_false.mpr fun _ _ => Bool.false_ne_true

end Stream

end ZeroCode.Web
