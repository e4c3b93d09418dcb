import Mathlib.Data.List.Basic

/-!
# Listeners of a notification channel

A notification reaches exactly the listeners that are listening when it is issued. A
listener that has subscribed keeps what it received, in order, until it takes it.
-/

namespace ZeroCode.Foundation

/-- A session on one channel: whether it listens, and what it received and has not taken. -/
structure Listener (E : Type*) where
  listening : Bool
  pending : List E
  deriving DecidableEq, Repr

namespace Listener

variable {E : Type*}

/-- A session that does not listen yet. -/
def idle : Listener E := ⟨false, []⟩

/-- Begin to listen. -/
def subscribe (l : Listener E) : Listener E := { l with listening := true }

/-- Issue a notification. -/
def notify (l : Listener E) (e : E) : Listener E :=
  if l.listening then { l with pending := l.pending ++ [e] } else l

/-- Take the oldest notification. -/
def next (l : Listener E) : Option (E × Listener E) :=
  match l.pending with
  | [] => none
  | e :: rest => some (e, { l with pending := rest })

/-- Notifying does not change whether the session listens. -/
@[simp]
theorem notify_listening (l : Listener E) (e : E) : (l.notify e).listening = l.listening := by
  unfold notify
  split <;> rfl

/-- What is pending stays pending when another notification arrives. -/
theorem mem_notify {l : Listener E} {e e' : E} (h : e' ∈ l.pending) : e' ∈ (l.notify e).pending := by
  unfold notify
  split
  · exact List.mem_append_left _ h
  · exact h

/-- A listening session receives the notification. -/
theorem mem_notify_self {l : Listener E} (h : l.listening = true) (e : E) : e ∈ (l.notify e).pending := by
  rw [notify, if_pos h]
  exact List.mem_append_right _ (List.mem_singleton_self e)

/-- What is pending after a notification was so before, or is the notification. -/
theorem mem_of_notify {l : Listener E} {e e' : E} (h : e' ∈ (l.notify e).pending) : e' ∈ l.pending ∨ e' = e := by
  unfold notify at h
  split at h
  · exact (List.mem_append.mp h).imp_right List.mem_singleton.mp
  · exact Or.inl h

/-- The notification taken was the first of those pending. -/
theorem pending_of_next {l l' : Listener E} {e : E} (h : l.next = some (e, l')) : l.pending = e :: l'.pending := by
  unfold next at h
  split at h
  · cases h
  · rename_i hpending
    cases h
    exact hpending

/-- What is pending is the notification taken, or is still pending. -/
theorem mem_of_next {l l' : Listener E} {e e' : E} (h : l.next = some (e, l')) (hmem : e' ∈ l.pending) :
    e' = e ∨ e' ∈ l'.pending := by
  rw [pending_of_next h] at hmem
  exact List.mem_cons.mp hmem

/-- Taking a notification does not change whether the session listens. -/
theorem next_listening {l l' : Listener E} {e : E} (h : l.next = some (e, l')) : l'.listening = l.listening := by
  unfold next at h
  split at h <;> cases h
  rfl

end Listener

end ZeroCode.Foundation
