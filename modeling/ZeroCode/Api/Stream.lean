import ZeroCode.Api.Channel
import ZeroCode.Api.Submission

/-!
# The event stream of a submission

The handler of an event stream reads the row, answers a terminal one with a single frame,
and otherwise listens and sends every event on. It listens only after it has read: what is
broadcast in between reaches nobody. And it sends the end of the submission on like any
other event, so that only a failing session ends the response.
-/

namespace ZeroCode.Api

open ZeroCode.Core ZeroCode.Foundation ZeroCode.Worker

/-- The errors of a session. -/
inductive StreamError
  | db (msg : String)
  | badPayload (msg : String)
  deriving DecidableEq, Repr

/-- The text of an error. -/
def StreamError.text : StreamError → String
  | .db msg => "db error: " ++ msg
  | .badPayload msg => "malformed payload: " ++ msg

/-- The data of a frame: a JSON object, empty or with one field, or a plain text. -/
inductive FrameData
  | empty
  | data (data : String)
  | status (status : Status)
  | plain (text : String)
  deriving DecidableEq, Repr

/-- One frame of the response. -/
structure SseEvent where
  event : String
  data : FrameData
  deriving DecidableEq, Repr

/-- The frame of what a session yields. -/
def frame : Except StreamError Event → SseEvent
  | .ok .processing => ⟨"processing", .empty⟩
  | .ok (.stdoutChunk data) => ⟨"stdout", .data data⟩
  | .ok (.stderrChunk data) => ⟨"stderr", .data data⟩
  | .ok (.finished status) => ⟨"finished", .status status⟩
  | .error e => ⟨"error", .plain e.text⟩

/-- The frame tells the client that the submission finished. -/
def SseEvent.isFinished (f : SseEvent) : Bool := f.event == "finished"

/-- The frames of a response so far, and whether it has ended. -/
structure SseResponse where
  frames : List SseEvent
  ended : Bool
  deriving DecidableEq, Repr

/-- What a session has yielded so far; an error of the connection is the last it yields. -/
structure Session where
  items : List (Except StreamError Event)
  failure : Option StreamError

/-- All that the session has yielded. -/
def Session.yielded (session : Session) : List (Except StreamError Event) :=
  session.items ++ session.failure.toList.map .error

/-- The single frame of a submission that is done, or none if the handler has to listen. -/
def checkDone : Except ApiError (Option Submission) → Except ApiError (Option SseEvent)
  | .error e => .error e
  | .ok none => .error .notFound
  | .ok (some sub) => .ok (if sub.isDone then some ⟨"finished", .status sub.status⟩ else none)

/-- The error of a handler that could not listen. -/
def subscribeFailed (e : StreamError) : ApiError := .internal ("subscribe failed: " ++ e.text)

/-- The response to a request, whose path may hold no token. -/
def stream (path : Option Token) (fetch : Token → Except ApiError (Option Submission))
    (subscribe : Token → Except StreamError Session) : Except ApiError SseResponse :=
  match path with
  | none => .error (.validation "token format invalid")
  | some token =>
    match checkDone (fetch token) with
    | .error e => .error e
    | .ok (some event) => .ok ⟨[event], true⟩
    | .ok none =>
      match subscribe token with
      | .error e => .error (subscribeFailed e)
      | .ok session => .ok ⟨session.yielded.map frame, session.failure.isSome⟩

/-- At most one frame tells of the finish, it is the last one, and the response ends with it. -/
structure SseResponse.EndsAtFinish (r : SseResponse) : Prop where
  once : ∀ (i j : ℕ) (f g : SseEvent), r.frames[i]? = some f → r.frames[j]? = some g →
    f.isFinished = true → g.isFinished = true → i = j
  last : ∀ (i : ℕ) (f : SseEvent), r.frames[i]? = some f → f.isFinished = true → i + 1 = r.frames.length
  ended : ∀ f ∈ r.frames, f.isFinished = true → r.ended = true

/-- Only the end of a submission has a frame that tells of it. -/
theorem isFinished_frame (item : Except StreamError Event) :
    (frame item).isFinished = true ↔ ∃ status, item = .ok (.finished status) := by
  cases item with
  | error e => simp [frame, SseEvent.isFinished]
  | ok event => cases event <;> simp [frame, SseEvent.isFinished]

/-- The handler listens exactly for a submission that was found and is not done. -/
theorem checkDone_eq_none {fetched : Except ApiError (Option Submission)} :
    checkDone fetched = .ok none ↔ ∃ sub, fetched = .ok (some sub) ∧ sub.isDone = false := by
  cases fetched with
  | error e => simp [checkDone]
  | ok found => cases found with
    | none => simp [checkDone]
    | some sub => simp [checkDone]

/-- A response of one frame that has ended ends at its finish. -/
theorem endsAtFinish_single (f : SseEvent) : (SseResponse.mk [f] true).EndsAtFinish := by
  have first {i : ℕ} {g : SseEvent} (h : [f][i]? = some g) : i = 0 := by
    obtain ⟨hlt, _⟩ := List.getElem?_eq_some_iff.mp h
    simpa using hlt
  exact ⟨fun i j _ _ hi hj _ _ => (first hi).trans (first hj).symm, fun i _ hi _ => by rw [first hi]; rfl,
    fun _ _ _ => rfl⟩

/-- A response that tells of no finish need not end. -/
theorem endsAtFinish_of_quiet {r : SseResponse} (hquiet : ∀ f ∈ r.frames, f.isFinished = false) : r.EndsAtFinish := by
  have absent {f : SseEvent} (hf : f ∈ r.frames) (hfinished : f.isFinished = true) : False := by
    rw [hquiet f hf] at hfinished
    cases hfinished
  exact ⟨fun _ _ _ _ hi _ hfinished _ => (absent (List.mem_of_getElem? hi) hfinished).elim,
    fun _ _ hi hfinished => (absent (List.mem_of_getElem? hi) hfinished).elim,
    fun _ hf hfinished => (absent hf hfinished).elim⟩

/-- A session that has yielded an end does not make the response end at it. -/
theorem not_endsAtFinish_of_mem {session : Session} {status : Status}
    (hmem : .ok (.finished status) ∈ session.items) :
    ¬ (SseResponse.mk (session.yielded.map frame) session.failure.isSome).EndsAtFinish := by
  intro hends
  obtain ⟨i, hi⟩ := List.mem_iff_getElem?.mp hmem
  obtain ⟨hlt, _⟩ := List.getElem?_eq_some_iff.mp hi
  have hframe : (session.yielded.map frame)[i]? = some (frame (.ok (.finished status))) := by
    rw [List.getElem?_map, Session.yielded, List.getElem?_append_left hlt, hi]
    rfl
  have hlast := hends.last i _ hframe rfl
  have hended := hends.ended _ (List.mem_of_getElem? hframe) rfl
  -- only an error ends the session, and its frame comes after this one
  cases hfailure : session.failure with
  | none => simp [hfailure] at hended
  | some e =>
    simp only [Session.yielded, hfailure, List.length_map, List.length_append, Option.toList_some,
      List.length_singleton] at hlast
    omega

/-- The response ends at its first finish exactly when the handler does not listen, or the
session yields no end. -/
theorem stream_endsAtFinish_iff (path : Option Token) (fetch : Token → Except ApiError (Option Submission))
    (subscribe : Token → Except StreamError Session) :
    (∀ r, stream path fetch subscribe = .ok r → r.EndsAtFinish) ↔
      ∀ token sub session, path = some token → fetch token = .ok (some sub) → sub.isDone = false →
        subscribe token = .ok session → ∀ status, .ok (.finished status) ∉ session.items := by
  constructor
  · rintro hends token sub session rfl hfetch hopen hsubscribe status hmem
    refine not_endsAtFinish_of_mem hmem (hends _ ?_)
    simp only [stream, checkDone_eq_none.mpr ⟨sub, hfetch, hopen⟩, hsubscribe]
  · intro hquiet r hr
    unfold stream at hr
    split at hr
    · cases hr
    · rename_i token
      split at hr
      · cases hr
      · cases hr
        exact endsAtFinish_single _
      · rename_i hlisten
        split at hr
        · cases hr
        · rename_i session hsubscribe
          cases hr
          obtain ⟨sub, hfetch, hopen⟩ := checkDone_eq_none.mp hlisten
          refine endsAtFinish_of_quiet fun f hf => ?_
          obtain ⟨item, hitem, rfl⟩ := List.mem_map.mp hf
          rw [Bool.eq_false_iff, ne_eq, isFinished_frame]
          intro hitemFinished
          obtain ⟨status, rfl⟩ := hitemFinished
          rcases List.mem_append.mp hitem with hmem | hfailure
          · exact hquiet token sub session rfl hfetch hopen hsubscribe status hmem
          · simp at hfailure

/-- The events of a submission that is executed again after the sweeper returned it to the queue. -/
def requeuedEvents : List (Except StreamError Event) :=
  [.ok .processing, .ok (.finished .accepted), .ok .processing, .ok (.finished .accepted)]

/-- The response for a queued submission that is executed twice tells of two finishes and does not end. -/
theorem requeued_tellsTwice :
    ∃ r, stream (some 7) (fetchSubmission [(NewSubmission.blank 7).row 0]) (fun _ => .ok ⟨requeuedEvents, none⟩) =
        .ok r ∧ r.frames.countP SseEvent.isFinished = 2 ∧ r.ended = false ∧ ¬ r.EndsAtFinish := by
  refine ⟨⟨requeuedEvents.map frame, false⟩, rfl, rfl, rfl, fun hends => ?_⟩
  have hsame : 1 = 3 := hends.once 1 3 _ _ rfl rfl rfl rfl
  cases hsame

end ZeroCode.Api
