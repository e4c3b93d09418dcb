import ZeroCode.Api.Channel
import ZeroCode.Api.Submission

/-!
# Waiting for a submission to finish

The handler of a waiting client inserts the submission, wakes the workers, listens on the
channel, and only then reads the row: what it has not read as terminal is written, and so
broadcast, while it listens. It waits in a loop for an end or for half a minute; without a
session it polls the row instead. The clock of the handler is the clock of the database.
-/

namespace ZeroCode.Api

open ZeroCode.Core ZeroCode.Foundation ZeroCode.Worker

/-- How long a client waits, in seconds. -/
def waitTimeout : ℚ := 30

/-- Where the handler is. -/
inductive WaitPc
  | inserting
  | notifying
  | subscribing
  | fetching (subscribed : Bool)
  | looping (deadline : ℚ)
  | parked (deadline : ℚ)
  | finishing (deadline : ℚ)
  | polling (deadline : ℚ)
  | timedOut
  | returned (response : Except ApiError (Option Submission))
  deriving DecidableEq, Repr

/-- The handler and what it shares with the workers. -/
structure WaitState where
  channel : Channel
  pc : WaitPc
  deriving DecidableEq, Repr

/-- The handler before its submission is inserted. -/
def WaitState.init : WaitState := ⟨.init, .inserting⟩

/-- A step of the handler, or one outside it. -/
inductive WaitAction
  | outside (a : FleetAction)
  | insert (reply : Reply)
  | notify (ok : Bool)
  | subscribe (ok : Bool)
  | fetch (ok : Bool)
  | enter
  | receive
  | listenerFails
  | timeout
  deriving DecidableEq, Repr

/-- Answer the client and give the session up. -/
def WaitState.respond (s : WaitState) (response : Except ApiError (Option Submission)) : WaitState :=
  ⟨{ s.channel with listener := .idle }, .returned response⟩

/-- What a read of the row returns. -/
def WaitState.fetched (s : WaitState) (token : Token) (ok : Bool) : Except ApiError (Option Submission) :=
  if ok then fetchSubmission s.channel.fleet.rows token else .error .db

/-- Answer with a submission that is done, else go on. -/
def WaitState.respondIfDone (s : WaitState) (fetched : Except ApiError (Option Submission)) (next : WaitPc) :
    WaitState :=
  match fetched with
  | .error e => s.respond (.error e)
  | .ok (some sub) => if sub.isDone then s.respond (.ok (some sub)) else { s with pc := next }
  | .ok none => { s with pc := next }

/-- Insert the submission, which may take effect although the handler sees an error. -/
def WaitState.insert (s : WaitState) (new : NewSubmission) (reply : Reply) : WaitState :=
  match reply, s.channel.observe new.token (.insert new) with
  | .acknowledged, some channel => ⟨channel, .notifying⟩
  | .lost, some channel => (WaitState.mk channel s.pc).respond (.error .db)
  | .failed, some _ | _, none => s.respond (.error .db)

/-- Where an event of the session leads. -/
def WaitPc.hear (deadline : ℚ) : Event → WaitPc
  | .finished _ => .finishing deadline
  | .processing | .stdoutChunk _ | .stderrChunk _ => .looping deadline

/-- One step of the system. -/
def WaitState.step (new : NewSubmission) (s : WaitState) (a : WaitAction) : Option WaitState :=
  match a, s.pc with
  | .outside a, _ => (s.channel.observe new.token a).map fun channel => { s with channel := channel }
  | .insert reply, .inserting => some (s.insert new reply)
  | .notify ok, .notifying =>
    if ok then some { s with pc := .subscribing } else some (s.respond (.error (.internal "pg_notify failed")))
  | .subscribe ok, .subscribing =>
    if ok then
      some ⟨{ s.channel with listener := s.channel.listener.subscribe }, .fetching true⟩
    else some { s with pc := .fetching false }
  -- the guard against an end broadcast before the session began
  | .fetch ok, .fetching subscribed =>
    let deadline := s.channel.fleet.now + waitTimeout
    some (s.respondIfDone (s.fetched new.token ok) (if subscribed then .looping deadline else .polling deadline))
  | .enter, .looping deadline =>
    some { s with pc := if deadline ≤ s.channel.fleet.now then .timedOut else .parked deadline }
  | .receive, .parked deadline =>
    s.channel.listener.next.map fun (event, listener) =>
      ⟨{ s.channel with listener := listener }, .hear deadline event⟩
  | .listenerFails, .parked _ => some { s with pc := .timedOut }
  | .timeout, .parked deadline => if deadline ≤ s.channel.fleet.now then some { s with pc := .timedOut } else none
  | .fetch ok, .finishing deadline =>
    match s.fetched new.token ok with
    | .error e => some (s.respond (.error e))
    | .ok (some sub) => some (s.respond (.ok (some sub)))
    | .ok none => some { s with pc := .looping deadline }
  | .fetch ok, .polling deadline =>
    if deadline ≤ s.channel.fleet.now then some { s with pc := .timedOut }
    else some (s.respondIfDone (s.fetched new.token ok) (.polling deadline))
  | .fetch ok, .timedOut => some (s.respond (s.fetched new.token ok))
  | _, _ => none

/-- An answer to a client that waits is a row read in the step that gives it. -/
theorem WaitState.fetched_of_respondIfDone {token : Token} {s : WaitState} {ok : Bool} {next : WaitPc}
    {sub : Submission} (hnext : ∀ response, next ≠ .returned response)
    (hreturned : (s.respondIfDone (s.fetched token ok) next).pc = .returned (.ok (some sub))) :
    s.fetched token ok = .ok (some sub) := by
  unfold WaitState.respondIfDone at hreturned
  split at hreturned
  · cases hreturned
  · rename_i found hfetched
    split at hreturned
    · cases hreturned
      exact hfetched
    · exact absurd hreturned (hnext _)
  · exact absurd hreturned (hnext _)

/-- Answering a client leaves the table alone. -/
theorem WaitState.fleet_respondIfDone (s : WaitState) (fetched : Except ApiError (Option Submission)) (next : WaitPc) :
    (s.respondIfDone fetched next).channel.fleet = s.channel.fleet := by
  unfold WaitState.respondIfDone
  split
  · rfl
  · split <;> rfl
  · rfl

/-- Whatever ends a wait, an event, the deadline, the loss of the session or the polling of the row: the handler
returns its row as it reads it in that step. -/
theorem WaitState.fetched_of_returned {new : NewSubmission} {s t : WaitState} {a : WaitAction} {sub : Submission}
    (hopen : ∀ response, s.pc ≠ .returned response) (hstep : s.step new a = some t)
    (hreturned : t.pc = .returned (.ok (some sub))) :
    a = .fetch true ∧ t.channel.fleet = s.channel.fleet ∧
      fetchSubmission s.channel.fleet.rows new.token = .ok (some sub) := by
  have hread {ok : Bool} (hfetched : s.fetched new.token ok = .ok (some sub)) :
      ok = true ∧ fetchSubmission s.channel.fleet.rows new.token = .ok (some sub) := by
    cases ok with
    | false => cases hfetched
    | true => exact ⟨rfl, hfetched⟩
  have hanswer {ok : Bool} {next : WaitPc} (hnext : ∀ response, next ≠ .returned response)
      (hdone : (s.respondIfDone (s.fetched new.token ok) next).pc = .returned (.ok (some sub))) :
      WaitAction.fetch ok = .fetch true ∧
        (s.respondIfDone (s.fetched new.token ok) next).channel.fleet = s.channel.fleet ∧
          fetchSubmission s.channel.fleet.rows new.token = .ok (some sub) := by
    obtain ⟨rfl, hfetch⟩ := hread (WaitState.fetched_of_respondIfDone hnext hdone)
    exact ⟨rfl, WaitState.fleet_respondIfDone _ _ _, hfetch⟩
  unfold WaitState.step at hstep
  split at hstep
  · obtain ⟨channel, _, rfl⟩ := Option.map_eq_some_iff.mp hstep
    exact absurd hreturned (hopen _)
  · cases hstep
    unfold WaitState.insert at hreturned
    split at hreturned <;> cases hreturned
  · split at hstep <;> cases hstep <;> cases hreturned
  · split at hstep <;> cases hstep <;> cases hreturned
  · rename_i ok subscribed hpc
    cases hstep
    refine hanswer (fun response => ?_) hreturned
    cases subscribed <;> nofun
  · cases hstep
    split at hreturned <;> cases hreturned
  · obtain ⟨⟨event, listener⟩, _, rfl⟩ := Option.map_eq_some_iff.mp hstep
    cases event <;> cases hreturned
  · cases hstep
    cases hreturned
  · split at hstep <;> cases hstep
    cases hreturned
  · split at hstep <;> cases hstep
    · cases hreturned
    · rename_i found hfetched
      cases hreturned
      obtain ⟨rfl, hfetch⟩ := hread hfetched
      exact ⟨rfl, rfl, hfetch⟩
    · cases hreturned
  · split at hstep <;> cases hstep
    · cases hreturned
    · exact hanswer (fun _ => nofun) hreturned
  · cases hstep
    obtain ⟨rfl, hfetch⟩ := hread (WaitPc.returned.inj hreturned)
    exact ⟨rfl, rfl, hfetch⟩
  · cases hstep

/-- Every broadcast of an end succeeds. -/
def Delivered (_ : WaitState) : WaitAction → Prop
  | .outside a => Announces a
  | _ => True

instance (s : WaitState) (a : WaitAction) : Decidable (Delivered s a) :=
  match a with
  | .outside a => inferInstanceAs (Decidable (Announces a))
  | .insert _ | .notify _ | .subscribe _ | .fetch _ | .enter | .receive | .listenerFails | .timeout => isTrue trivial

/-- A terminal row has an end pending, or a task that has yet to announce it. -/
def Channel.Awake (token : Token) (c : Channel) : Prop :=
  c.RowTerminal token → c.FinishPending ∨ c.FinishDue token

/-- While the session lasts, a step outside the handler keeps a terminal row from going unnoticed. -/
theorem Channel.Awake.observe {token : Token} {c d : Channel} {a : FleetAction} (h : c.Awake token)
    (hlistening : c.listener.listening = true) (hannounces : Announces a) (hstep : c.observe token a = some d) :
    d.Awake token := by
  intro hrow
  obtain ⟨r, hr, htoken, hterminal⟩ := hrow
  have hfleet := (observe_spec hstep).1
  rcases Fleet.terminal_of_step hfleet hr hterminal with ⟨old, hold, hsame, hbefore⟩ | ⟨task, htask, hsame, hopen⟩
  · rcases h ⟨old, hold, hsame.trans htoken, hbefore⟩ with hpending | ⟨task, htask, hmine, hopen⟩
    · exact Or.inl (hpending.observe hstep)
    · rcases Fleet.unannounced_of_step hfleet hannounces htask hopen with ⟨task', htask', hsame', hopen'⟩ | hsaid
      · exact Or.inr ⟨task', htask', hsame'.trans hmine, hopen'⟩
      · obtain ⟨status, hpublished⟩ := hsaid
        rw [hmine] at hpublished
        exact Or.inl (finishPending_of_published hlistening hstep hpublished)
  · exact Or.inr ⟨task, htask, hsame.trans htoken, hopen⟩

/-- The handler has a session. -/
def WaitPc.listens : WaitPc → Bool
  | .fetching subscribed => subscribed
  | .looping _ | .parked _ | .finishing _ => true
  | _ => false

/-- The handler has a session and relies on it to hear of the end. -/
def WaitPc.waits : WaitPc → Bool
  | .looping _ | .parked _ => true
  | _ => false

/-- Who relies on a session has one. -/
theorem WaitPc.listens_of_waits {pc : WaitPc} (h : pc.waits = true) : pc.listens = true := by
  cases pc <;> first | rfl | cases h

/-- The tokens are unique, the session lasts as long as it is needed, and while the handler
waits its row cannot be terminal unnoticed. -/
structure WakeInv (token : Token) (s : WaitState) : Prop where
  tokens : (s.channel.fleet.rows.map Row.token).Nodup
  listening : s.pc.listens = true → s.channel.listener.listening = true
  awake : s.pc.waits = true → s.channel.Awake token

/-- The invariant holds before the submission is inserted. -/
theorem wakeInv_init (token : Token) : WakeInv token .init :=
  ⟨List.nodup_nil, fun h => (by cases h), fun h => (by cases h)⟩

/-- An answered client waits for nothing. -/
theorem wakeInv_respond {token : Token} {s : WaitState} (hunique : (s.channel.fleet.rows.map Row.token).Nodup)
    (response : Except ApiError (Option Submission)) : WakeInv token (s.respond response) :=
  ⟨hunique, fun hlistens => (by cases hlistens), fun hwaits => (by cases hwaits)⟩

/-- A handler that does not wait yet may go on in any way that needs no session it has not got. -/
theorem WakeInv.go {token : Token} {s : WaitState} (h : WakeInv token s) {next : WaitPc}
    (hlistens : next.listens = true → s.channel.listener.listening = true)
    (hwaits : next.waits = true → s.channel.Awake token) : WakeInv token { s with pc := next } :=
  ⟨h.tokens, hlistens, hwaits⟩

/-- The row is not terminal if it was just read as not done. -/
theorem Channel.awake_of_open {token : Token} {c : Channel} (hunique : (c.fleet.rows.map Row.token).Nodup)
    {sub : Submission} (hfetch : fetchSubmission c.fleet.rows token = .ok (some sub)) (hopen : ¬ sub.isDone = true) :
    c.Awake token := by
  intro hrow
  obtain ⟨r, hr, htoken, hterminal⟩ := hrow
  rw [isDone_of_fetchSubmission hunique hfetch hr htoken] at hopen
  exact absurd hterminal hopen

/-- The row is not terminal if it was just not found. -/
theorem Channel.awake_of_absent {token : Token} {c : Channel}
    (hfetch : fetchSubmission c.fleet.rows token = .ok none) : c.Awake token := by
  intro hrow
  obtain ⟨r, hr, htoken, _⟩ := hrow
  exact absurd htoken (fetchSubmission_eq_none hfetch r hr)

/-- A handler that read its row as not done may wait. -/
theorem WakeInv.respondIfDone {token : Token} {s : WaitState} (h : WakeInv token s) (ok : Bool) {next : WaitPc}
    (hlistens : next.listens = true → s.channel.listener.listening = true) :
    WakeInv token (s.respondIfDone (s.fetched token ok) next) := by
  cases ok with
  | false => exact wakeInv_respond h.tokens _
  | true =>
    have hread : s.fetched token true = fetchSubmission s.channel.fleet.rows token := rfl
    rw [hread]
    unfold WaitState.respondIfDone
    split
    · exact wakeInv_respond h.tokens _
    · rename_i sub hfetch
      split
      · exact wakeInv_respond h.tokens _
      · rename_i hopen
        exact h.go hlistens fun _ => Channel.awake_of_open h.tokens hfetch hopen
    · rename_i hfetch
      exact h.go hlistens fun _ => Channel.awake_of_absent hfetch

/-- Inserting the submission keeps the invariant, however the statement ends. -/
theorem WakeInv.insert {new : NewSubmission} {s : WaitState} (h : WakeInv new.token s) (reply : Reply) :
    WakeInv new.token (s.insert new reply) := by
  have tokens {channel : Channel} (hobserve : s.channel.observe new.token (.insert new) = some channel) :
      (channel.fleet.rows.map Row.token).Nodup :=
    Fleet.nodup_tokens_of_step (Channel.observe_spec hobserve).1 h.tokens
  unfold WaitState.insert
  split
  · rename_i channel hobserve
    exact ⟨tokens hobserve, fun hlistens => (by cases hlistens), fun hwaits => (by cases hwaits)⟩
  · rename_i channel hobserve
    exact wakeInv_respond (tokens hobserve) _
  · exact wakeInv_respond h.tokens _
  · exact wakeInv_respond h.tokens _

/-- Taking an event from the session keeps the invariant: an end leads out of the wait. -/
theorem WakeInv.receive {token : Token} {s : WaitState} (h : WakeInv token s) {deadline : ℚ}
    (hpc : s.pc = .parked deadline) {event : Event} {listener : Listener Event}
    (hnext : s.channel.listener.next = some (event, listener)) :
    WakeInv token ⟨{ s.channel with listener := listener }, .hear deadline event⟩ := by
  have hlistening : listener.listening = true := by
    rw [Listener.next_listening hnext]
    exact h.listening (by rw [hpc]; rfl)
  refine ⟨h.tokens, fun _ => hlistening, fun hwaits hterminal => ?_⟩
  rcases h.awake (by rw [hpc]; rfl) hterminal with ⟨status, hpending⟩ | hdue
  · left
    rcases Listener.mem_of_next hnext hpending with rfl | hkept
    · cases hwaits
    · exact ⟨status, hkept⟩
  · exact Or.inr hdue

/-- Every step keeps the invariant as long as no broadcast of an end fails. -/
theorem step_wakeInv (new : NewSubmission) (s : WaitState) (a : WaitAction) (t : WaitState)
    (h : WakeInv new.token s) (hdelivered : Delivered s a) (hstep : s.step new a = some t) :
    WakeInv new.token t := by
  unfold WaitState.step at hstep
  split at hstep
  · rename_i a
    obtain ⟨channel, hobserve, rfl⟩ := Option.map_eq_some_iff.mp hstep
    refine ⟨Fleet.nodup_tokens_of_step (Channel.observe_spec hobserve).1 h.tokens, fun hlistens => ?_,
      fun hwaits => ?_⟩
    · exact (Channel.observe_listening hobserve).trans (h.listening hlistens)
    · exact (h.awake hwaits).observe (h.listening (WaitPc.listens_of_waits hwaits)) hdelivered hobserve
  · rename_i reply _
    cases hstep
    exact h.insert reply
  · split at hstep <;> cases hstep
    · exact h.go (fun hlistens => (by cases hlistens)) fun hwaits => (by cases hwaits)
    · exact wakeInv_respond h.tokens _
  · split at hstep <;> cases hstep
    · exact ⟨h.tokens, fun _ => rfl, fun hwaits => (by cases hwaits)⟩
    · exact h.go (fun hlistens => (by cases hlistens)) fun hwaits => (by cases hwaits)
  · rename_i ok subscribed hpc
    cases hstep
    refine h.respondIfDone ok fun hlistens => ?_
    cases subscribed with
    | true => exact h.listening (by rw [hpc]; rfl)
    | false => cases hlistens
  · rename_i deadline hpc
    cases hstep
    split
    · exact h.go (fun hlistens => (by cases hlistens)) fun hwaits => (by cases hwaits)
    · exact h.go (fun _ => h.listening (by rw [hpc]; rfl)) fun _ => h.awake (by rw [hpc]; rfl)
  · rename_i deadline hpc
    obtain ⟨⟨event, listener⟩, hnext, rfl⟩ := Option.map_eq_some_iff.mp hstep
    exact h.receive hpc hnext
  · cases hstep
    exact h.go (fun hlistens => (by cases hlistens)) fun hwaits => (by cases hwaits)
  · split at hstep <;> cases hstep
    exact h.go (fun hlistens => (by cases hlistens)) fun hwaits => (by cases hwaits)
  · rename_i ok deadline hpc
    split at hstep <;> cases hstep
    · exact wakeInv_respond h.tokens _
    · exact wakeInv_respond h.tokens _
    · rename_i hfetch
      cases ok with
      | false => cases hfetch
      | true =>
        exact h.go (fun _ => h.listening (by rw [hpc]; rfl)) fun _ => Channel.awake_of_absent hfetch
  · rename_i ok deadline hpc
    split at hstep <;> cases hstep
    · exact h.go (fun hlistens => (by cases hlistens)) fun hwaits => (by cases hwaits)
    · exact h.respondIfDone ok fun hlistens => (by cases hlistens)
  · cases hstep
    exact wakeInv_respond h.tokens _
  · cases hstep

/-- In every run in which no broadcast of an end fails, a client parked on a terminal row has
an end pending, or a task that wrote the row and has yet to announce it. -/
theorem no_lost_wakeup {new : NewSubmission} {s : WaitState} {deadline : ℚ}
    (hreached : Reaches (WaitState.step new) Delivered .init s) (hparked : s.pc = .parked deadline)
    (hterminal : s.channel.RowTerminal new.token) :
    s.channel.FinishPending ∨ s.channel.FinishDue new.token := by
  have hinv : WakeInv new.token s := hreached.invariant _ (wakeInv_init new.token) (step_wakeInv new)
  exact hinv.awake (by rw [hparked]; rfl) hterminal

/-- A client parks before its submission is claimed, and the worker writes the result. -/
def parkThenWrite (new : NewSubmission) : List WaitAction :=
  [.insert .acknowledged, .notify true, .subscribe true, .fetch true, .enter,
    .outside (.claim "w" [] new.token .acknowledged), .outside (.publishProcessing 0 true),
    .outside (.execute 0 (some acceptedResult)), .outside (.writeResult 0 .acknowledged)]

/-- What that client shares with the workers by then. -/
def writtenChannel : Channel := ⟨acceptedFleet 7 (.publishing .accepted), ⟨true, [.processing]⟩, [.processing]⟩

/-- The parked client of an accepted submission is due an end. -/
theorem no_lost_wakeup_parked :
    runActions (checkedStep (WaitState.step (.blank 7)) Delivered) .init (parkThenWrite (.blank 7)) =
        some ⟨writtenChannel, .parked 30⟩ ∧
      (writtenChannel.FinishPending ∨ writtenChannel.FinishDue 7) := by
  have hrun : runActions (checkedStep (WaitState.step (.blank 7)) Delivered) .init (parkThenWrite (.blank 7)) =
      some ⟨writtenChannel, .parked 30⟩ := by decide +kernel
  exact ⟨hrun, no_lost_wakeup (.of_runActions _ hrun) rfl ⟨acceptedRow 7, List.mem_singleton_self _, rfl, rfl⟩⟩

end ZeroCode.Api
