import Mathlib.Logic.Function.Basic
import Mathlib.Data.Nat.Notation

/-!
# The children of a process

A process has children under numbers of its own. A child that ended keeps its number until
its status is collected, and the number may then be given to another child. Each entry
remembers on whose behalf the child is there, which the kernel does not know.
-/

namespace ZeroCode.Foundation

/-- A child: on whose behalf it is there, and how it ended. -/
structure ChildProcess (O W : Type*) where
  owner : O
  status : Option W
  deriving DecidableEq, Repr

/-- The children by their numbers. -/
abbrev ProcessTable (O W : Type*) := ℕ → Option (ChildProcess O W)

/-- What a wait that does not block finds. -/
inductive Waited (W : Type*)
  | stillAlive
  | collected (status : W)
  | echild
  deriving DecidableEq, Repr

namespace ProcessTable

variable {O W : Type*}

/-- No children. -/
def empty : ProcessTable O W := fun _ => none

/-- Whose child has this number. -/
def owner (table : ProcessTable O W) (pid : ℕ) : Option O := (table pid).map ChildProcess.owner

/-- A new child under a number that is free. -/
def spawn (table : ProcessTable O W) (pid : ℕ) (o : O) : Option (ProcessTable O W) :=
  if (table pid).isNone then some (Function.update table pid (some ⟨o, none⟩)) else none

/-- A living child ends. -/
def exit (table : ProcessTable O W) (pid : ℕ) (status : W) : Option (ProcessTable O W) :=
  match table pid with
  | some ⟨o, none⟩ => some (Function.update table pid (some ⟨o, some status⟩))
  | _ => none

/-- Collect the status of a child that has ended. -/
def wait (table : ProcessTable O W) (pid : ℕ) : Waited W × ProcessTable O W :=
  match table pid with
  | none => (.echild, table)
  | some ⟨_, none⟩ => (.stillAlive, table)
  | some ⟨_, some status⟩ => (.collected status, Function.update table pid none)

/-- The owners after a child was spawned: its number was free. -/
theorem owner_of_spawn {table table' : ProcessTable O W} {pid : ℕ} {o : O} (h : table.spawn pid o = some table') :
    table.owner pid = none ∧ table'.owner = Function.update table.owner pid (some o) := by
  unfold spawn at h
  split at h
  · rename_i hfree
    cases h
    refine ⟨by simp [owner, Option.isNone_iff_eq_none.mp hfree], ?_⟩
    funext other
    by_cases hother : other = pid
    · subst hother
      simp [owner]
    · simp [owner, hother]
  · cases h

/-- A child that ends stays with its owner. -/
theorem owner_of_exit {table table' : ProcessTable O W} {pid : ℕ} {status : W}
    (h : table.exit pid status = some table') : table'.owner = table.owner := by
  unfold exit at h
  split at h
  · rename_i o hchild
    cases h
    funext other
    by_cases hother : other = pid
    · subst hother
      simp [owner, hchild]
    · simp [owner, hother]
  · cases h

/-- A wait finds no child where there is none. -/
theorem wait_echild_iff {table : ProcessTable O W} {pid : ℕ} : (table.wait pid).1 = .echild ↔ table.owner pid = none := by
  unfold wait owner
  split <;> simp [*]

/-- A wait takes out the child whose status it collects, and nothing else. -/
theorem owner_of_wait (table : ProcessTable O W) (pid : ℕ) :
    (table.wait pid).2.owner = table.owner ∨
      (∃ status, (table.wait pid).1 = .collected status) ∧
        (table.wait pid).2.owner = Function.update table.owner pid none := by
  unfold wait
  split
  · exact Or.inl rfl
  · exact Or.inl rfl
  · rename_i o status hchild
    refine Or.inr ⟨⟨status, rfl⟩, ?_⟩
    funext other
    by_cases hother : other = pid
    · subst hother
      simp [owner]
    · simp [owner, hother]

end ProcessTable

end ZeroCode.Foundation
