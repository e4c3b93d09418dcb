import Mathlib.Data.Finset.Basic
import ZeroCode.Foundation.ProcessTable
import ZeroCode.Foundation.Transition
import ZeroCode.Sandbox.Outcome

/-!
# The reaper beside the sandboxes

Any number of sandbox calls fork a child each, claim it in the registry and wait for it,
while the reaper collects the orphans of the process. The reaper peeks at a child that has
ended, asks the registry about its pid, and waits for that pid, in three separate steps; a
child may end at any moment after its fork, and a pid may be given out again once its
status is collected. A history remembers who collected the status of each call's child.
-/

namespace ZeroCode.Worker.Reaper

open ZeroCode.Foundation ZeroCode.Sandbox

/-- The set of the owned pids behind its lock. -/
structure Registry where
  poisoned : Bool
  owned : Finset ℕ
  deriving DecidableEq

/-- Claim a pid. -/
def Registry.register (r : Registry) (pid : ℕ) : Registry :=
  if r.poisoned then r else { r with owned := insert pid r.owned }

/-- Release a pid. -/
def Registry.unregister (r : Registry) (pid : ℕ) : Registry :=
  if r.poisoned then r else { r with owned := r.owned.erase pid }

/-- The pid belongs to a sandbox in flight; a poisoned lock answers that it does. -/
def Registry.isOwned (r : Registry) (pid : ℕ) : Bool := r.poisoned || decide (pid ∈ r.owned)

/-- How a call ends, as far as the wait for its child is concerned. -/
inductive Outcome
  | collected (status : WaitStatus)
  | echild
  | failed
  deriving DecidableEq, Repr

/-- Where a call of `run` is. -/
inductive Pc
  | idle
  | forked (pid : ℕ)
  | registered (pid : ℕ)
  | waiting (pid : ℕ)
  | killed (pid : ℕ)
  | finished (pid : ℕ) (outcome : Outcome)
  | returned (outcome : Outcome)
  deriving DecidableEq, Repr

/-- The child of a call that has not seen how its child ended. -/
def Pc.child : Pc → Option ℕ
  | .forked pid | .registered pid | .waiting pid | .killed pid => some pid
  | .idle | .finished _ _ | .returned _ => none

/-- The pid of the guard that a call holds. -/
def Pc.guard : Pc → Option ℕ
  | .registered pid | .waiting pid | .killed pid | .finished pid _ => some pid
  | .idle | .forked _ | .returned _ => none

/-- How the wait of a call ended. -/
def Pc.outcome : Pc → Option Outcome
  | .finished _ outcome | .returned outcome => some outcome
  | _ => none

/-- Where the reaper is. -/
inductive ReaperPc
  | idle
  | draining
  | peeked (pid : ℕ)
  | cleared (pid : ℕ)
  deriving DecidableEq, Repr

/-- Who collects a status. -/
inductive Collector (C : Type*)
  | call (c : C)
  | reaper
  deriving DecidableEq, Repr

/-- The children of the worker, the registry, the calls, the reaper, and who collected the status of
each call's child. A child that no call forked has no owner. -/
structure State (C : Type*) where
  table : ProcessTable (Option C) ProcessEnd
  registry : Registry
  call : C → Pc
  reaper : ReaperPc
  consumers : C → List (Collector C)

/-- A step of a call, of a child, or of the reaper. -/
inductive Action (C : Type*)
  | fork (c : C) (pid : ℕ)
  | register (c : C)
  | setUp (c : C) (ok : Bool)
  | poll (c : C) (overrun : Bool)
  | waitFails (c : C)
  | postKillWait (c : C)
  | drop (c : C)
  | exit (pid : ℕ) (status : ProcessEnd)
  | orphan (pid : ℕ)
  | poison
  | tick
  | peek (found : Option ℕ)
  | test
  | reap
  deriving DecidableEq, Repr

variable {C : Type*}

/-- No call has begun and the reaper sleeps. -/
def State.init : State C where
  table := .empty
  registry := ⟨false, ∅⟩
  call := fun _ => .idle
  reaper := .idle
  consumers := fun _ => []

/-- What a call takes from its wait; the status of a real-time signal cannot be decoded. -/
def settle : Waited ProcessEnd → Option Outcome
  | .stillAlive => none
  | .collected status => some (match waitpid status with
    | some decoded => .collected decoded
    | none => .failed)
  | .echild => some .echild

variable [DecidableEq C]

/-- Move a call on. -/
def State.setCall (s : State C) (c : C) (pc : Pc) : State C := { s with call := Function.update s.call c pc }

/-- Wait for a pid without blocking, remembering who collected the status of a call's child. -/
def State.wait (s : State C) (who : Collector C) (pid : ℕ) : State C :=
  { s with
    table := (s.table.wait pid).2
    consumers :=
      match (s.table.wait pid).1, s.table.owner pid with
      | .collected _, some (some c) => Function.update s.consumers c (s.consumers c ++ [who])
      | _, _ => s.consumers }

/-- One step of the process. -/
def step (s : State C) : Action C → Option (State C)
  | .fork c pid =>
    match s.call c with
    | .idle => (s.table.spawn pid (some c)).map fun table => { s.setCall c (.forked pid) with table := table }
    | _ => none
  | .register c =>
    match s.call c with
    | .forked pid => some { s.setCall c (.registered pid) with registry := s.registry.register pid }
    | _ => none
  -- the ready byte and the attach to the cgroup, each behind a question mark
  | .setUp c ok =>
    match s.call c with
    | .registered pid => some (s.setCall c (if ok then .waiting pid else .finished pid .failed))
    | _ => none
  | .poll c overrun =>
    match s.call c with
    | .waiting pid =>
      match settle (s.table.wait pid).1 with
      | none => some (s.setCall c (if overrun then .killed pid else .waiting pid))
      | some outcome => some ((s.wait (.call c) pid).setCall c (.finished pid outcome))
    | _ => none
  | .waitFails c =>
    match s.call c with
    | .waiting pid | .killed pid => some (s.setCall c (.finished pid .failed))
    | _ => none
  -- this wait blocks as long as the child lives
  | .postKillWait c =>
    match s.call c with
    | .killed pid =>
      match settle (s.table.wait pid).1 with
      | none => none
      | some outcome => some ((s.wait (.call c) pid).setCall c (.finished pid outcome))
    | _ => none
  | .drop c =>
    match s.call c with
    | .finished pid outcome => some { s.setCall c (.returned outcome) with registry := s.registry.unregister pid }
    | _ => none
  | .exit pid status => (s.table.exit pid status).map fun table => { s with table := table }
  | .orphan pid => (s.table.spawn pid none).map fun table => { s with table := table }
  | .poison => some { s with registry := { s.registry with poisoned := true } }
  | .tick => if s.reaper = .idle then some { s with reaper := .draining } else none
  | .peek found =>
    if s.reaper = .draining then
      match found with
      | some pid =>
        match s.table pid with
        | some ⟨_, some status⟩ => if status.isDecodable then some { s with reaper := .peeked pid } else none
        | _ => none
      -- nobody has ended, or the peek failed
      | none => some { s with reaper := .idle }
    else none
  | .test =>
    match s.reaper with
    | .peeked pid => some { s with reaper := if s.registry.isOwned pid then .idle else .cleared pid }
    | _ => none
  | .reap =>
    match s.reaper with
    | .cleared pid =>
      match (s.table.wait pid).1 with
      | .collected status => some { s.wait .reaper pid with reaper := if status.isDecodable then .draining else .idle }
      | _ => some { s with reaper := .idle }
    | _ => none

/-- What a step found and what it left. -/
inductive Effect (s : State C) : Action C → State C → Prop
  | fork (c : C) (pid : ℕ) (table : ProcessTable (Option C) ProcessEnd) (hcall : s.call c = .idle)
    (hfree : s.table.owner pid = none) (howner : table.owner = Function.update s.table.owner pid (some (some c))) :
    Effect s (.fork c pid) { s.setCall c (.forked pid) with table := table }
  | register (c : C) (pid : ℕ) (hcall : s.call c = .forked pid) :
    Effect s (.register c) { s.setCall c (.registered pid) with registry := s.registry.register pid }
  -- the call goes on with its guard, or gives up waiting
  | moved (a : Action C) (c : C) (pid : ℕ) (pc : Pc) (hchild : (s.call c).child = some pid)
    (hguard : (s.call c).guard = some pid) (hpc : pc.guard = some pid) (hkept : pc.child = none ∨ pc.child = some pid)
    (houtcome : pc.outcome ≠ some .echild) : Effect s a (s.setCall c pc)
  | settled (a : Action C) (c : C) (pid : ℕ) (outcome : Outcome) (hchild : (s.call c).child = some pid)
    (hguard : (s.call c).guard = some pid) (houtcome : settle (s.table.wait pid).1 = some outcome) :
    Effect s a ((s.wait (.call c) pid).setCall c (.finished pid outcome))
  | drop (c : C) (pid : ℕ) (outcome : Outcome) (hcall : s.call c = .finished pid outcome) :
    Effect s (.drop c) { s.setCall c (.returned outcome) with registry := s.registry.unregister pid }
  | exit (pid : ℕ) (status : ProcessEnd) (table : ProcessTable (Option C) ProcessEnd)
    (howner : table.owner = s.table.owner) : Effect s (.exit pid status) { s with table := table }
  | orphan (pid : ℕ) (table : ProcessTable (Option C) ProcessEnd) (hfree : s.table.owner pid = none)
    (howner : table.owner = Function.update s.table.owner pid (some none)) :
    Effect s (.orphan pid) { s with table := table }
  | poison : Effect s .poison { s with registry := { s.registry with poisoned := true } }
  | look (a : Action C) (reaper : ReaperPc) (hreaper : ∀ pid, reaper ≠ .cleared pid) :
    Effect s a { s with reaper := reaper }
  | test (pid : ℕ) (hreaper : s.reaper = .peeked pid) (hfree : s.registry.isOwned pid = false) :
    Effect s .test { s with reaper := .cleared pid }
  | reap (pid : ℕ) (reaper : ReaperPc) (hreaper : s.reaper = .cleared pid) (hnext : ∀ pid, reaper ≠ .cleared pid) :
    Effect s .reap { s.wait .reaper pid with reaper := reaper }

/-- Every step has one of the effects. -/
theorem effect_of_step {s t : State C} {a : Action C} (hstep : step s a = some t) : Effect s a t := by
  cases a with
  | fork c pid =>
    simp only [step] at hstep
    split at hstep
    · rename_i hcall
      obtain ⟨table, htable, rfl⟩ := Option.map_eq_some_iff.mp hstep
      obtain ⟨hfree, howner⟩ := ProcessTable.owner_of_spawn htable
      exact .fork c pid table hcall hfree howner
    · cases hstep
  | register c =>
    simp only [step] at hstep
    split at hstep
    · rename_i pid hcall
      cases hstep
      exact .register c pid hcall
    · cases hstep
  | setUp c ok =>
    simp only [step] at hstep
    split at hstep
    · rename_i pid hcall
      cases hstep
      cases ok
      · exact .moved _ c pid _ (by rw [hcall]; rfl) (by rw [hcall]; rfl) rfl (Or.inl rfl) (by simp [Pc.outcome])
      · exact .moved _ c pid _ (by rw [hcall]; rfl) (by rw [hcall]; rfl) rfl (Or.inr rfl) (by simp [Pc.outcome])
    · cases hstep
  | poll c overrun =>
    simp only [step] at hstep
    split at hstep
    · rename_i pid hcall
      split at hstep
      · cases hstep
        cases overrun
        · exact .moved _ c pid _ (by rw [hcall]; rfl) (by rw [hcall]; rfl) rfl (Or.inr rfl) (by simp [Pc.outcome])
        · exact .moved _ c pid _ (by rw [hcall]; rfl) (by rw [hcall]; rfl) rfl (Or.inr rfl) (by simp [Pc.outcome])
      · rename_i outcome houtcome
        cases hstep
        exact .settled _ c pid outcome (by rw [hcall]; rfl) (by rw [hcall]; rfl) houtcome
    · cases hstep
  | waitFails c =>
    simp only [step] at hstep
    split at hstep
    · rename_i pid hcall
      cases hstep
      exact .moved _ c pid _ (by rw [hcall]; rfl) (by rw [hcall]; rfl) rfl (Or.inl rfl) (by simp [Pc.outcome])
    · rename_i pid hcall
      cases hstep
      exact .moved _ c pid _ (by rw [hcall]; rfl) (by rw [hcall]; rfl) rfl (Or.inl rfl) (by simp [Pc.outcome])
    · cases hstep
  | postKillWait c =>
    simp only [step] at hstep
    split at hstep
    · rename_i pid hcall
      split at hstep
      · cases hstep
      · rename_i outcome houtcome
        cases hstep
        exact .settled _ c pid outcome (by rw [hcall]; rfl) (by rw [hcall]; rfl) houtcome
    · cases hstep
  | drop c =>
    simp only [step] at hstep
    split at hstep
    · rename_i pid outcome hcall
      cases hstep
      exact .drop c pid outcome hcall
    · cases hstep
  | exit pid status =>
    obtain ⟨table, htable, rfl⟩ := Option.map_eq_some_iff.mp hstep
    exact .exit pid status table (ProcessTable.owner_of_exit htable)
  | orphan pid =>
    obtain ⟨table, htable, rfl⟩ := Option.map_eq_some_iff.mp hstep
    obtain ⟨hfree, howner⟩ := ProcessTable.owner_of_spawn htable
    exact .orphan pid table hfree howner
  | poison =>
    cases hstep
    exact .poison
  | tick =>
    simp only [step] at hstep
    split at hstep
    · cases hstep
      exact .look _ _ (by simp)
    · cases hstep
  | peek found =>
    simp only [step] at hstep
    split at hstep
    · split at hstep
      · split at hstep
        · split at hstep
          · cases hstep
            exact .look _ _ (by simp)
          · cases hstep
        · cases hstep
      · cases hstep
        exact .look _ _ (by simp)
    · cases hstep
  | test =>
    simp only [step] at hstep
    split at hstep
    · rename_i pid hreaper
      cases hstep
      cases howned : s.registry.isOwned pid with
      | true => exact .look _ _ (by simp)
      | false => exact .test pid hreaper howned
    · cases hstep
  | reap =>
    simp only [step] at hstep
    split at hstep
    · rename_i pid hreaper
      split at hstep
      · rename_i status hwait
        cases hstep
        exact .reap pid _ hreaper (by intro pid; split <;> simp)
      · cases hstep
        exact .look _ _ (by simp)
    · cases hstep

end ZeroCode.Worker.Reaper
