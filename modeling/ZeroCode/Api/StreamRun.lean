import ZeroCode.Api.Stream

/-!
# The event stream beside the workers

The handler of an event stream as a party of the system: it reads the row, begins its
session and sends on what the session yields, while the workers write the row and then
broadcast. An end that is broadcast after the read and before the session is never heard.
If the session begins before any end is broadcast, every later one is on its way to the
client.
-/

namespace ZeroCode.Api

open ZeroCode.Core ZeroCode.Foundation ZeroCode.Worker

/-- Where the handler is; once it streams, the events it has sent on. -/
inductive StreamPc
  | fetching
  | subscribing
  | parked (taken : List Event)
  | responded (response : Except ApiError SseResponse)
  deriving DecidableEq, Repr

/-- The handler and what it shares with the workers. -/
structure StreamState where
  channel : Channel
  pc : StreamPc
  deriving DecidableEq, Repr

/-- The handler of a request that has just arrived. -/
def StreamState.init : StreamState := ⟨.init, .fetching⟩

/-- A step of the handler, or one outside it. -/
inductive StreamAction
  | outside (a : FleetAction)
  | fetch (ok : Bool)
  | subscribe (outcome : Except StreamError Unit)
  | deliver
  | listenerFails (e : StreamError)
  deriving DecidableEq, Repr

/-- The frames of the events that were sent on. -/
def sentFrames (taken : List Event) : List SseEvent := taken.map fun event => frame (.ok event)

/-- One step of the system. -/
def StreamState.step (token : Token) (s : StreamState) (a : StreamAction) : Option StreamState :=
  match a, s.pc with
  | .outside a, _ => (s.channel.observe token a).map fun channel => { s with channel := channel }
  | .fetch ok, .fetching =>
    match checkDone (if ok then fetchSubmission s.channel.fleet.rows token else .error .db) with
    | .error e => some { s with pc := .responded (.error e) }
    | .ok (some event) => some { s with pc := .responded (.ok ⟨[event], true⟩) }
    | .ok none => some { s with pc := .subscribing }
  | .subscribe outcome, .subscribing =>
    match outcome with
    | .ok () => some ⟨{ s.channel with listener := s.channel.listener.subscribe }, .parked []⟩
    | .error e => some { s with pc := .responded (.error (subscribeFailed e)) }
  | .deliver, .parked taken =>
    s.channel.listener.next.map fun (event, listener) =>
      ⟨{ s.channel with listener := listener }, .parked (taken ++ [event])⟩
  | .listenerFails e, .parked taken =>
    some ⟨{ s.channel with listener := .idle }, .responded (.ok ⟨sentFrames taken ++ [frame (.error e)], true⟩)⟩
  | _, _ => none

/-- What the client has received. -/
def StreamState.response (s : StreamState) : Option (Except ApiError SseResponse) :=
  match s.pc with
  | .fetching | .subscribing => none
  | .parked taken => some (.ok ⟨sentFrames taken, false⟩)
  | .responded response => some response

/-- The row is terminal and its end was broadcast, but the client of the parked handler has
not received it and will not. -/
def StreamState.LostFinish (token : Token) (s : StreamState) : Prop :=
  s.channel.RowTerminal token ∧ s.channel.FinishPublished ∧
    (∃ taken, s.pc = .parked taken ∧ ∀ f ∈ sentFrames taken, f.isFinished = false) ∧ ¬ s.channel.FinishPending

/-- The session begins before any end is broadcast. -/
def SubscribesInTime (s : StreamState) : StreamAction → Prop
  | .subscribe _ => ¬ s.channel.FinishPublished
  | _ => True

instance (c : Channel) : Decidable c.FinishPublished :=
  decidable_of_iff (∃ event ∈ c.published, (frame (.ok event)).isFinished = true) <| by
    constructor
    · intro hframe
      obtain ⟨event, hpublished, hfinished⟩ := hframe
      obtain ⟨status, hevent⟩ := (isFinished_frame (.ok event)).mp hfinished
      cases hevent
      exact ⟨status, hpublished⟩
    · intro hfinish
      obtain ⟨status, hpublished⟩ := hfinish
      exact ⟨_, hpublished, rfl⟩

instance (s : StreamState) (a : StreamAction) : Decidable (SubscribesInTime s a) :=
  match a with
  | .subscribe _ => inferInstanceAs (Decidable (¬ s.channel.FinishPublished))
  | .outside _ | .fetch _ | .deliver | .listenerFails _ => isTrue trivial

/-- The request has an answer that begins with this response. -/
def Answers (token : Token) (response : Except ApiError SseResponse) : Prop :=
  ∃ fetched subscribed, stream (some token) (fun _ => fetched) (fun _ => subscribed) = response

/-- A handler that read a terminal row answers with its frame. -/
theorem answers_of_done (token : Token) {fetched : Except ApiError (Option Submission)} {event : SseEvent}
    (hfetched : checkDone fetched = .ok (some event)) : Answers token (.ok ⟨[event], true⟩) :=
  ⟨fetched, .error (.db ""), by simp only [stream, hfetched]⟩

/-- A handler that could not read a row answers with the error. -/
theorem answers_of_error (token : Token) {fetched : Except ApiError (Option Submission)} {e : ApiError}
    (hfetched : checkDone fetched = .error e) : Answers token (.error e) :=
  ⟨fetched, .error (.db ""), by simp only [stream, hfetched]⟩

/-- A handler that went on to listen answers with the frames of what its session yields. -/
theorem answers_of_session (token : Token) {fetched : Except ApiError (Option Submission)}
    (hlisten : checkDone fetched = .ok none) (session : Session) :
    Answers token (.ok ⟨session.yielded.map frame, session.failure.isSome⟩) :=
  ⟨fetched, .ok session, by simp only [stream, hlisten]⟩

/-- The frames of a session are those of its events and of the error that ended it. -/
theorem yielded_sent (taken : List Event) (failure : Option StreamError) :
    (Session.mk (taken.map .ok) failure).yielded.map frame =
      sentFrames taken ++ failure.toList.map fun e => frame (.error e) := by
  simp only [Session.yielded, sentFrames, List.map_append, List.map_map, Function.comp_def]

/-- What the handler has decided: to listen, or how to answer. -/
def Decided (token : Token) : StreamPc → Prop
  | .fetching => True
  | .subscribing | .parked _ => ∃ fetched, checkDone fetched = .ok none
  | .responded response => Answers token response

/-- Every step follows the decision of the handler. -/
theorem step_decided (token : Token) (s : StreamState) (a : StreamAction) (t : StreamState)
    (h : Decided token s.pc) (hstep : s.step token a = some t) : Decided token t.pc := by
  unfold StreamState.step at hstep
  split at hstep
  · obtain ⟨channel, _, rfl⟩ := Option.map_eq_some_iff.mp hstep
    exact h
  · rename_i ok _
    split at hstep <;> cases hstep
    · rename_i e hfetch
      exact answers_of_error token hfetch
    · rename_i event hfetch
      exact answers_of_done token hfetch
    · rename_i hfetch
      exact ⟨_, hfetch⟩
  · rename_i hpc
    rw [hpc] at h
    split at hstep <;> cases hstep
    · exact h
    · rename_i e
      obtain ⟨fetched, hlisten⟩ := h
      exact ⟨fetched, .error e, by simp only [stream, hlisten]⟩
  · rename_i taken hpc
    rw [hpc] at h
    obtain ⟨_, _, rfl⟩ := Option.map_eq_some_iff.mp hstep
    exact h
  · rename_i e taken hpc
    rw [hpc] at h
    obtain ⟨fetched, hlisten⟩ := h
    cases hstep
    have hanswers := answers_of_session token hlisten ⟨taken.map .ok, some e⟩
    rw [yielded_sent] at hanswers
    exact hanswers
  · cases hstep

/-- In every run, what the client has received is an answer to its request. -/
theorem response_answers {token : Token} {s : StreamState} {response : Except ApiError SseResponse}
    (hreached : Reachable (StreamState.step token) .init s) (hresponse : s.response = some response) :
    Answers token response := by
  have hdecided : Decided token s.pc :=
    hreached.invariant (fun u => Decided token u.pc) trivial fun u a v h _ hstep => step_decided token u a v h hstep
  unfold StreamState.response at hresponse
  split at hresponse
  · cases hresponse
  · cases hresponse
  · rename_i taken hpc
    cases hresponse
    rw [hpc] at hdecided
    obtain ⟨fetched, hlisten⟩ := hdecided
    have hanswers := answers_of_session token hlisten ⟨taken.map .ok, none⟩
    rw [yielded_sent, Option.toList_none, List.map_nil, List.append_nil] at hanswers
    exact hanswers
  · rename_i hpc
    cases hresponse
    rw [hpc] at hdecided
    exact hdecided

/-- Every end that was broadcast was sent on, or is waiting to be. -/
structure StreamInv (s : StreamState) : Prop where
  listening : ∀ (taken : List Event), s.pc = .parked taken → s.channel.listener.listening = true
  heard : ∀ (taken : List Event) (status : Status), s.pc = .parked taken →
    Event.finished status ∈ s.channel.published →
      Event.finished status ∈ taken ∨ Event.finished status ∈ s.channel.listener.pending

/-- The invariant holds when the request arrives. -/
theorem streamInv_init : StreamInv .init :=
  ⟨fun _ hpc => (by cases hpc), fun _ _ hpc => (by cases hpc)⟩

/-- A handler that is not parked has nothing to hear. -/
theorem streamInv_of_not_parked {s : StreamState} (h : ∀ taken, s.pc ≠ .parked taken) : StreamInv s :=
  ⟨fun taken hpc => absurd hpc (h taken), fun taken _ hpc => absurd hpc (h taken)⟩

/-- A step outside the handler keeps the invariant: what is broadcast is received. -/
theorem StreamInv.observe {token : Token} {s : StreamState} {a : FleetAction} {channel : Channel} (h : StreamInv s)
    (hobserve : s.channel.observe token a = some channel) : StreamInv { s with channel := channel } := by
  refine ⟨fun taken hpc => (Channel.observe_listening hobserve).trans (h.listening taken hpc),
    fun taken status hpc hpublished => ?_⟩
  rcases (Channel.observe_spec hobserve).2 with ⟨event, _, hlistener, hbroadcast⟩ | ⟨_, hlistener, hbroadcast⟩
  · rw [hbroadcast, List.mem_append, List.mem_singleton] at hpublished
    rcases hpublished with hbefore | rfl
    · exact (h.heard taken status hpc hbefore).imp_right fun hpending => by
        rw [hlistener]
        exact Listener.mem_notify hpending
    · right
      rw [hlistener]
      exact Listener.mem_notify_self (h.listening taken hpc) _
  · rw [hbroadcast] at hpublished
    rw [hlistener]
    exact h.heard taken status hpc hpublished

/-- Every step that begins the session in time keeps the invariant. -/
theorem step_streamInv (token : Token) (s : StreamState) (a : StreamAction) (t : StreamState) (h : StreamInv s)
    (hintime : SubscribesInTime s a) (hstep : s.step token a = some t) : StreamInv t := by
  unfold StreamState.step at hstep
  split at hstep
  · obtain ⟨channel, hobserve, rfl⟩ := Option.map_eq_some_iff.mp hstep
    exact h.observe hobserve
  · split at hstep <;> cases hstep <;> exact streamInv_of_not_parked fun _ hpc => (by cases hpc)
  · split at hstep <;> cases hstep
    · exact ⟨fun _ _ => rfl, fun _ status _ hpublished => absurd ⟨status, hpublished⟩ hintime⟩
    · exact streamInv_of_not_parked fun _ hpc => (by cases hpc)
  · rename_i taken hpc
    obtain ⟨⟨event, listener⟩, hnext, rfl⟩ := Option.map_eq_some_iff.mp hstep
    refine ⟨fun _ _ => (Listener.next_listening hnext).trans (h.listening taken hpc),
      fun _ status hpc' hpublished => ?_⟩
    obtain rfl := StreamPc.parked.inj hpc'
    rcases h.heard taken status hpc hpublished with htaken | hpending
    · exact Or.inl (List.mem_append_left _ htaken)
    · rcases Listener.mem_of_next hnext hpending with rfl | hkept
      · exact Or.inl (List.mem_append_right _ (List.mem_singleton_self _))
      · exact Or.inr hkept
  · cases hstep
    exact streamInv_of_not_parked fun _ hpc => (by cases hpc)
  · cases hstep

/-- No finish is lost in a run in which the session begins before any end is broadcast. -/
theorem no_lostFinish {token : Token} {s : StreamState}
    (hreached : Reaches (StreamState.step token) SubscribesInTime .init s) : ¬ s.LostFinish token := by
  intro hlost
  obtain ⟨_, ⟨status, hpublished⟩, ⟨taken, hpc, hquiet⟩, hnone⟩ := hlost
  have hinv := hreached.invariant StreamInv streamInv_init (step_streamInv token)
  rcases hinv.heard taken status hpc hpublished with htaken | hpending
  · have hframe := hquiet _ (List.mem_map_of_mem htaken)
    cases hframe
  · exact hnone ⟨status, hpending⟩

/-- The steps outside the handler by which a submission ends, once it was executed. -/
def writeThenPublish : List StreamAction :=
  [.outside (.writeResult 0 .acknowledged), .outside (.publishFinished 0 true)]

/-- The state of a parked handler after them, with what its session holds. -/
def finishedState (pending : List Event) : StreamState :=
  ⟨⟨acceptedFleet 7 .done, ⟨true, pending⟩, [.processing, .finished .accepted]⟩, .parked []⟩

/-- A session that began in time holds the end. -/
theorem no_lostFinish_inTime :
    runActions (checkedStep (StreamState.step 7) SubscribesInTime) .init
        ((executeFirst 7).map .outside ++ [.fetch true, .subscribe (.ok ())] ++ writeThenPublish) =
        some (finishedState [.finished .accepted]) ∧
      ¬ (finishedState [.finished .accepted]).LostFinish 7 := by
  have hrun : runActions (checkedStep (StreamState.step 7) SubscribesInTime) .init
      ((executeFirst 7).map .outside ++ [.fetch true, .subscribe (.ok ())] ++ writeThenPublish) =
      some (finishedState [.finished .accepted]) := by decide +kernel
  exact ⟨hrun, no_lostFinish (.of_runActions _ hrun)⟩

/-- A handler that reads the row before the end and listens after it has lost it. -/
theorem lateSession_losesFinish :
    Reachable (StreamState.step 7) .init (finishedState []) ∧ (finishedState []).LostFinish 7 := by
  constructor
  · have hrun : runActions (StreamState.step 7) .init
        ((executeFirst 7).map .outside ++ ([.fetch true] : List StreamAction) ++ writeThenPublish ++
          ([.subscribe (.ok ())] : List StreamAction)) = some (finishedState []) := by decide +kernel
    exact .of_runActions _ hrun
  · refine ⟨⟨acceptedRow 7, List.mem_singleton_self _, rfl, rfl⟩, by decide, ⟨[], rfl, fun f hf => (by cases hf)⟩, ?_⟩
    intro hfinish
    obtain ⟨status, hpending⟩ := hfinish
    cases hpending

end ZeroCode.Api
