import ZeroCode.Sandbox.PipeIsolation

/-!
# Descriptors of the executed programs

A process knows its pipes by number. The child inherits the ends it did not drop, puts
the staged stdin and two of the pipes on the numbers 0 to 2, and the compile sub-child
exchanges its stderr once more. Executing a program closes what was opened
close-on-exec; a descriptor placed by `dup2` never is.

What is left decides where the bytes of the compiler and of the program can go: both
still hold the writing ends of `stdout`, `stderr` and `compile`, each under the number it
was created with.
-/

namespace ZeroCode.Sandbox

open ZeroCode.Core PipeIsolation

/-- What a descriptor refers to: the staged stdin, an end of a pipe, or an open file of the worker. -/
inductive Target
  | stdinFile
  | pipe (e : End)
  | worker
  deriving DecidableEq, Repr

/-- An open descriptor. -/
structure Descriptor where
  target : Target
  closeOnExec : Bool
  deriving DecidableEq, Repr

/-- The descriptors of a process, by number. -/
abbrev FdTable := ℕ → Option Descriptor

/-- The numbers the worker's `pipe` calls returned; the first three are taken. -/
structure Numbering where
  number : End → ℕ
  injective : Function.Injective number
  beyondStderr : ∀ e, 3 ≤ number e

/-- The position of a pipe in the order of creation. -/
def position : PipeName → ℕ
  | .stdout => 0
  | .stderr => 1
  | .compile => 2
  | .ready => 3
  | .start => 4
  | .artifact => 5
  | .phase => 6
  | .proceed => 7

/-- The numbers in a worker whose first free one is 3. -/
def Numbering.consecutive : Numbering where
  number e := 3 + 2 * position e.1 + if e.2 = .read then 0 else 1
  injective := by
    intro e e' h
    obtain ⟨p, side⟩ := e
    obtain ⟨p', side'⟩ := e'
    cases side <;> cases side' <;> simp only [reduceCtorEq, if_true, if_false, Prod.mk.injEq, and_true] at h ⊢
    · cases p <;> cases p' <;> first | rfl | cases h
    · omega
    · omega
    · cases p <;> cases p' <;> first | rfl | cases h
  beyondStderr e := by
    show 3 ≤ 3 + 2 * position e.1 + _
    omega

/-- Place a target on a number. -/
def FdTable.dup2 (table : FdTable) (target : Target) (n : ℕ) : FdTable :=
  Function.update table n (some ⟨target, false⟩)

/-- What is left when the process executes a program. -/
def FdTable.onExec (table : FdTable) : FdTable := fun n => (table n).filter fun d => !d.closeOnExec

/-- The ends a child keeps after its fork. -/
def childEnds : List End := declarationOrder.filter fun e => !childDrops.contains e

/-- The descriptors of the child behind its fork. -/
def childTable (num : Numbering) : FdTable := fun n =>
  if n < 3 then some ⟨.worker, false⟩
  else (childEnds.find? fun e => num.number e == n).map fun e => ⟨.pipe e, closeOnExec e⟩

/-- The descriptors of PID 1 behind its redirections. -/
def sandboxTable (num : Numbering) : FdTable :=
  (((childTable num).dup2 .stdinFile 0).dup2 (.pipe (.stdout, .write)) 1).dup2 (.pipe (.stderr, .write)) 2

/-- The descriptors of the executed compiler. -/
def compilerTable (num : Numbering) : FdTable := ((sandboxTable num).dup2 (.pipe (.compile, .write)) 2).onExec

/-- The descriptors of the executed program. -/
def programTable (num : Numbering) : FdTable := (sandboxTable num).onExec

/-- Executing keeps a descriptor that is not close-on-exec. -/
theorem onExec_eq_some_iff {table : FdTable} {n : ℕ} {d : Descriptor} :
    table.onExec n = some d ↔ table n = some d ∧ d.closeOnExec = false := by
  simp [FdTable.onExec, Option.filter_eq_some_iff]

/-- A number holds what was placed on it last. -/
theorem dup2_self (table : FdTable) (target : Target) (n : ℕ) : table.dup2 target n n = some ⟨target, false⟩ :=
  Function.update_self _ _ _

/-- Placing a target leaves the other numbers alone. -/
theorem dup2_of_ne (table : FdTable) (target : Target) {n m : ℕ} (hne : m ≠ n) : table.dup2 target n m = table m :=
  Function.update_of_ne hne _ _

/-- Behind its fork the child holds each kept end under the number it was created with. -/
theorem childTable_number (num : Numbering) {e : End} (he : e ∈ childEnds) :
    childTable num (num.number e) = some ⟨.pipe e, closeOnExec e⟩ := by
  have hfind : (childEnds.find? fun e' => num.number e' == num.number e) = some e := by
    cases hfound : childEnds.find? fun e' => num.number e' == num.number e with
    | none => exact absurd (List.find?_eq_none.mp hfound e he) (by simp)
    | some e' =>
      have hsame : num.number e' = num.number e := by simpa using List.find?_some hfound
      rw [num.injective hsame]
  rw [childTable, if_neg (by have := num.beyondStderr e; omega), hfind]
  rfl

/-- The redirections do not touch the numbers of the pipes. -/
theorem sandboxTable_number (num : Numbering) (e : End) :
    sandboxTable num (num.number e) = childTable num (num.number e) := by
  have hbound := num.beyondStderr e
  rw [sandboxTable, dup2_of_ne _ _ (by omega), dup2_of_ne _ _ (by omega), dup2_of_ne _ _ (by omega)]

/-- The program still holds the writing end of the compile pipe. -/
theorem programTable_compile (num : Numbering) :
    programTable num (num.number (.compile, .write)) = some ⟨.pipe (.compile, .write), false⟩ := by
  rw [programTable, onExec_eq_some_iff, sandboxTable_number, childTable_number num (by decide)]
  exact ⟨rfl, rfl⟩

/-- The compiler shares its stdout with the program. -/
theorem compilerTable_stdout (num : Numbering) :
    compilerTable num 1 = some ⟨.pipe (.stdout, .write), false⟩ := by
  rw [compilerTable, onExec_eq_some_iff, dup2_of_ne _ _ (by decide), sandboxTable, dup2_of_ne _ _ (by decide)]
  exact ⟨dup2_self _ _ _, rfl⟩

/-- The compiler shares its stdin with the program. -/
theorem compilerTable_stdin (num : Numbering) : compilerTable num 0 = some ⟨.stdinFile, false⟩ := by
  rw [compilerTable, onExec_eq_some_iff, dup2_of_ne _ _ (by decide), sandboxTable, dup2_of_ne _ _ (by decide),
    dup2_of_ne _ _ (by decide)]
  exact ⟨dup2_self _ _ _, rfl⟩

/-- An end of a pipe on a table behind the redirections was placed there or is close-on-exec
as it was created. -/
theorem sandboxTable_target {num : Numbering} {n : ℕ} {d : Descriptor} {e : End}
    (h : sandboxTable num n = some d) (htarget : d.target = .pipe e) :
    e = (.stdout, .write) ∨ e = (.stderr, .write) ∨ (e ∈ childEnds ∧ d.closeOnExec = closeOnExec e) := by
  by_cases herr : n = 2
  · subst herr
    rw [sandboxTable, dup2_self] at h
    cases h
    cases htarget
    exact Or.inr (Or.inl rfl)
  by_cases hout : n = 1
  · subst hout
    rw [sandboxTable, dup2_of_ne _ _ herr, dup2_self] at h
    cases h
    cases htarget
    exact Or.inl rfl
  by_cases hin : n = 0
  · subst hin
    rw [sandboxTable, dup2_of_ne _ _ herr, dup2_of_ne _ _ hout, dup2_self] at h
    cases h
    cases htarget
  rw [sandboxTable, dup2_of_ne _ _ herr, dup2_of_ne _ _ hout, dup2_of_ne _ _ hin, childTable,
    if_neg (by omega)] at h
  obtain ⟨e', hfind, rfl⟩ := Option.map_eq_some_iff.mp h
  cases htarget
  exact Or.inr (Or.inr ⟨List.mem_of_find?_eq_some hfind, rfl⟩)

/-- The pipes an executed compiler or program can write to. -/
def inheritedWrites : List End := [(.stdout, .write), (.stderr, .write), (.compile, .write), (.ready, .write)]

/-- Of the ends a child keeps, execution leaves four for writing. -/
theorem mem_inheritedWrites {e : End} (he : e ∈ childEnds) (hopen : closeOnExec e = false)
    (hwrite : e.2 = .write) : e ∈ inheritedWrites := by
  revert e
  decide

/-- The executed program writes only to inherited pipes. -/
theorem programTable_write {num : Numbering} {n : ℕ} {d : Descriptor} {p : PipeName}
    (h : programTable num n = some d) (htarget : d.target = .pipe (p, .write)) :
    (p, Side.write) ∈ inheritedWrites := by
  obtain ⟨hheld, hopen⟩ := onExec_eq_some_iff.mp h
  rcases sandboxTable_target hheld htarget with hout | herr | ⟨hmem, hsame⟩
  · rw [hout]
    decide
  · rw [herr]
    decide
  · exact mem_inheritedWrites hmem (hsame.symm.trans hopen) rfl

/-- The executed compiler writes only to inherited pipes. -/
theorem compilerTable_write {num : Numbering} {n : ℕ} {d : Descriptor} {p : PipeName}
    (h : compilerTable num n = some d) (htarget : d.target = .pipe (p, .write)) :
    (p, Side.write) ∈ inheritedWrites := by
  obtain ⟨hheld, hopen⟩ := onExec_eq_some_iff.mp h
  by_cases herr : n = 2
  · subst herr
    rw [dup2_self] at hheld
    cases hheld
    cases htarget
    decide
  · rw [dup2_of_ne _ _ herr] at hheld
    exact programTable_write (onExec_eq_some_iff.mpr ⟨hheld, hopen⟩) htarget

end ZeroCode.Sandbox
