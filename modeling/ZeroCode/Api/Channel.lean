import ZeroCode.Foundation.Listener
import ZeroCode.Worker.Announcement

/-!
# The channel of one submission

A handler shares the table with the workers and hears about its submission over a channel
of the submission's own. A broadcast is delivered, in the step that issues it, to the
handler if it listens by then, and is lost on it otherwise.
-/

namespace ZeroCode.Api

open ZeroCode.Core ZeroCode.Foundation ZeroCode.Worker

/-- The workers and the table, the session of a handler, and all that was broadcast about its submission. -/
structure Channel where
  fleet : Fleet
  listener : Listener Event
  published : List Event
  deriving DecidableEq, Repr

/-- No worker and no session. -/
def Channel.init : Channel := ⟨.init, .idle, []⟩

/-- A step outside the handler. -/
def Channel.observe (token : Token) (c : Channel) (a : FleetAction) : Option Channel :=
  (c.fleet.step a).map fun fleet =>
    match c.fleet.published a with
    | some (about, event) =>
      if about = token then ⟨fleet, c.listener.notify event, c.published ++ [event]⟩ else { c with fleet := fleet }
    | none => { c with fleet := fleet }

/-- The row of the submission is terminal. -/
def Channel.RowTerminal (token : Token) (c : Channel) : Prop :=
  ∃ r ∈ c.fleet.rows, r.token = token ∧ r.status.isTerminal = true

/-- An end was broadcast. -/
def Channel.FinishPublished (c : Channel) : Prop := ∃ status, Event.finished status ∈ c.published

/-- An end is waiting to be taken. -/
def Channel.FinishPending (c : Channel) : Prop := ∃ status, Event.finished status ∈ c.listener.pending

/-- A task wrote the row and has yet to announce it. -/
def Channel.FinishDue (token : Token) (c : Channel) : Prop :=
  ∃ task ∈ c.fleet.tasks, task.job.token = token ∧ task.unannounced = true

variable {token : Token} {c d : Channel} {a : FleetAction}

/-- What a step outside the handler does to the fleet, the session and the broadcasts. -/
theorem Channel.observe_spec (hstep : c.observe token a = some d) :
    c.fleet.step a = some d.fleet ∧
      ((∃ event, c.fleet.published a = some (token, event) ∧ d.listener = c.listener.notify event ∧
          d.published = c.published ++ [event]) ∨
        ((∀ event, c.fleet.published a ≠ some (token, event)) ∧ d.listener = c.listener ∧
          d.published = c.published)) := by
  obtain ⟨fleet, hfleet, rfl⟩ := Option.map_eq_some_iff.mp hstep
  cases hpublished : c.fleet.published a with
  | none => exact ⟨hfleet, Or.inr ⟨fun event => by simp, rfl, rfl⟩⟩
  | some message =>
    obtain ⟨about, event⟩ := message
    by_cases hmine : about = token
    · subst hmine
      dsimp only
      rw [if_pos rfl]
      exact ⟨hfleet, Or.inl ⟨event, rfl, rfl, rfl⟩⟩
    · dsimp only
      rw [if_neg hmine]
      refine ⟨hfleet, Or.inr ⟨fun event' h => ?_, rfl, rfl⟩⟩
      cases h
      exact hmine rfl

/-- A step outside the handler does not end its session. -/
theorem Channel.observe_listening (hstep : c.observe token a = some d) :
    d.listener.listening = c.listener.listening := by
  rcases (observe_spec hstep).2 with ⟨event, _, hlistener, _⟩ | ⟨_, hlistener, _⟩
  · rw [hlistener, Listener.notify_listening]
  · rw [hlistener]

/-- What is pending stays pending. -/
theorem Channel.FinishPending.observe (h : c.FinishPending) (hstep : c.observe token a = some d) :
    d.FinishPending := by
  obtain ⟨status, hstatus⟩ := h
  refine ⟨status, ?_⟩
  rcases (observe_spec hstep).2 with ⟨event, _, hlistener, _⟩ | ⟨_, hlistener, _⟩
  · rw [hlistener]
    exact Listener.mem_notify hstatus
  · rw [hlistener]
    exact hstatus

/-- A session that listens receives an end that is broadcast. -/
theorem Channel.finishPending_of_published (hlistening : c.listener.listening = true)
    (hstep : c.observe token a = some d) {status : Status}
    (hpublished : c.fleet.published a = some (token, .finished status)) : d.FinishPending := by
  rcases (observe_spec hstep).2 with ⟨event, hevent, hlistener, _⟩ | ⟨hsilent, _, _⟩
  · rw [hpublished] at hevent
    cases hevent
    exact ⟨status, by rw [hlistener]; exact Listener.mem_notify_self hlistening _⟩
  · exact absurd hpublished (hsilent _)

end ZeroCode.Api
