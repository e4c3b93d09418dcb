import Mathlib.Logic.Function.Basic

/-!
# Descriptor tables

A process holds resources of several owners. Installing and closing change the part of
one owner, a fork copies the whole table, and executing a program closes every resource
that is marked for it. Only what is installed can be held later.
-/

namespace ZeroCode.Foundation

/-- What a process holds of each owner. -/
abbrev DescriptorTable (J E : Type*) := J → List E

namespace DescriptorTable

variable {J E : Type*}

/-- What is left when the process executes a program. -/
def onExec (table : DescriptorTable J E) (closeOnExec : E → Bool) : DescriptorTable J E :=
  fun j => (table j).filter fun e => !closeOnExec e

/-- An owner all of whose resources are closed on execution has none left. -/
theorem onExec_eq_nil {table : DescriptorTable J E} {closeOnExec : E → Bool} {j : J}
    (hclosed : ∀ e ∈ table j, closeOnExec e = true) : table.onExec closeOnExec j = [] := by
  rw [onExec, List.filter_eq_nil_iff]
  intro e he
  simp [hclosed e he]

variable [DecidableEq J]

/-- Add resources of one owner. -/
def install (table : DescriptorTable J E) (j : J) (ends : List E) : DescriptorTable J E :=
  Function.update table j (ends ++ table j)

/-- Installing adds to one owner. -/
theorem install_self (table : DescriptorTable J E) (j : J) (ends : List E) :
    table.install j ends j = ends ++ table j :=
  Function.update_self _ _ _

/-- Installing resources of another owner changes nothing. -/
theorem install_of_ne {table : DescriptorTable J E} {i j : J} (hij : i ≠ j) (ends : List E) :
    table.install j ends i = table i :=
  Function.update_of_ne hij _ _

variable [DecidableEq E]

/-- Give up a resource of one owner. -/
def close (table : DescriptorTable J E) (j : J) (e : E) : DescriptorTable J E :=
  Function.update table j ((table j).filter (· ≠ e))

/-- Closing removes one resource of its owner. -/
theorem mem_close_self {table : DescriptorTable J E} {j : J} {e e' : E} :
    e' ∈ table.close j e j ↔ e' ∈ table j ∧ e' ≠ e := by
  simp [close]

/-- Closing a resource of another owner changes nothing. -/
theorem close_of_ne {table : DescriptorTable J E} {i j : J} (hij : i ≠ j) (e : E) :
    table.close j e i = table i :=
  Function.update_of_ne hij _ _

end DescriptorTable

end ZeroCode.Foundation
