import Mathlib.Data.List.Basic

/-!
# One-shot wake-ups

A signal wakes the longest waiter, or is stored as a single permit for the next one to
come. A waiter that gives up after it was woken passes the wake-up on. So a signal that was
issued is stored, or has been delivered to somebody who has not seen it yet, until somebody
takes it.
-/

namespace ZeroCode.Foundation

/-- The stored permit, who waits, and who was woken and has not noticed yet. -/
structure Notify (W : Type*) where
  permit : Bool
  waiting : List W
  notified : List W
  deriving DecidableEq, Repr

namespace Notify

variable {W : Type*}

/-- Nobody waits, and no permit is stored. -/
def idle : Notify W := ⟨false, [], []⟩

/-- Wake the first waiter, or store a permit. Permits do not add up. -/
def notifyOne (n : Notify W) : Notify W :=
  match n.waiting with
  | [] => { n with permit := true }
  | w :: rest => { n with waiting := rest, notified := n.notified ++ [w] }

/-- Ask for a wake-up: whether it is there, and the state after asking. Who has to wait is queued once. -/
def poll [DecidableEq W] (n : Notify W) (w : W) : Bool × Notify W :=
  if w ∈ n.notified then (true, { n with notified := n.notified.erase w })
  else if w ∈ n.waiting then (false, n)
  else if n.permit then (true, { n with permit := false })
  else (false, { n with waiting := n.waiting ++ [w] })

/-- Give up waiting. A wake-up that was already delivered is passed on. -/
def cancel [DecidableEq W] (n : Notify W) (w : W) : Notify W :=
  if w ∈ n.notified then notifyOne { n with notified := n.notified.erase w }
  else { n with waiting := n.waiting.erase w }

/-- A wake-up is stored or delivered, and nobody has taken it. -/
def Signalled (n : Notify W) : Prop := n.permit = true ∨ n.notified ≠ []

instance (n : Notify W) : Decidable n.Signalled := inferInstanceAs (Decidable (_ ∨ _))

/-- A signal is there once it was issued. -/
theorem signalled_notifyOne (n : Notify W) : n.notifyOne.Signalled := by
  unfold notifyOne
  split
  · exact Or.inl rfl
  · exact Or.inr (List.append_ne_nil_of_right_ne_nil _ (List.cons_ne_nil _ _))

/-- Giving up loses no signal. -/
theorem Signalled.cancel [DecidableEq W] {n : Notify W} (h : n.Signalled) (w : W) : (n.cancel w).Signalled := by
  unfold Notify.cancel
  split
  · exact signalled_notifyOne _
  · exact h

/-- Who asks in vain takes no signal. -/
theorem Signalled.of_poll [DecidableEq W] {n n' : Notify W} {w : W} (h : n.Signalled)
    (hpoll : n.poll w = (false, n')) : n'.Signalled := by
  unfold poll at hpoll
  split at hpoll
  · cases hpoll
  · split at hpoll
    · cases hpoll
      exact h
    · split at hpoll
      · cases hpoll
      · cases hpoll
        exact h

end Notify

end ZeroCode.Foundation
