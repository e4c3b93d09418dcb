import Mathlib.Data.Fintype.Basic
import ZeroCode.Foundation.DescriptorTable
import ZeroCode.Foundation.Transition
import ZeroCode.Sandbox.Execute

/-!
# Pipe ends of overlapping calls

Calls of `run` share the descriptor table of the worker process. Each creates eight
pipes, forks, and drops the ends it does not need; a fork copies the table as it is, with
the ends of every other call. A child drops the ends of its own call only, and `execvpe`
closes the three pipes created close-on-exec. The other five are inherited by whatever
is executed.

The reading end of `stdout` is the first that a call opens and the last but its reader
threads that it closes, so a call that is visible to a fork at all is visible with it.
-/

namespace ZeroCode.Sandbox.PipeIsolation

open ZeroCode.Foundation

/-- The two ends of a pipe. -/
inductive Side
  | read
  | write
  deriving DecidableEq, Repr

/-- One end of one of the pipes of a call. -/
abbrev End := PipeName × Side

/-- The pipes created by `pipe2` with `O_CLOEXEC`. -/
def closeOnExec (e : End) : Bool :=
  match e.1 with
  | .artifact | .phase | .proceed => true
  | .stdout | .stderr | .compile | .ready | .start => false

/-- The pipes the worker reads from. -/
def readByWorker : PipeName → Bool
  | .start | .proceed => false
  | _ => true

/-- The ends in the order in which their variables are declared. -/
def declarationOrder : List End := PipeName.all.flatMap fun p => [(p, .read), (p, .write)]

/-- What the parent drops right after the fork. -/
def parentDrops : List End :=
  [(.stdout, .write), (.stderr, .write), (.compile, .write), (.start, .read), (.ready, .write),
    (.artifact, .write), (.phase, .write), (.proceed, .read)]

/-- What the parent drops in the course of the handshake. -/
def handshakeDrops : List End := [(.ready, .read), (.start, .write)]

/-- What the child drops right after the fork. -/
def childDrops : List End :=
  [(.stdout, .read), (.stderr, .read), (.compile, .read), (.ready, .read), (.start, .write),
    (.artifact, .read), (.phase, .read), (.proceed, .write)]

/-- Where a call is: opening pipes, dropping ends after its fork, returning early, or
reading in its threads. -/
inductive Call
  | opening (rest : List PipeName)
  | dropping (rest : List End)
  | aborting
  | reading
  deriving DecidableEq, Repr

/-- The processes of one call: the intermediate child, PID 1 and the compile sub-child. -/
inductive Role
  | outer
  | inner
  | compiler
  deriving DecidableEq, Repr

/-- A process: what it holds, what it still drops, and whether it executed a program. -/
structure Process (J : Type*) where
  table : DescriptorTable J End
  drops : List End
  executed : Bool

/-- The calls of one worker process, the worker's descriptors and the living processes. -/
structure State (J : Type*) where
  calls : J → Call
  worker : DescriptorTable J End
  procs : J → Role → Option (Process J)

variable {J : Type*} [DecidableEq J]

/-- No call has begun. -/
def State.init : State J where
  calls _ := .opening PipeName.all
  worker _ := []
  procs _ _ := none

/-- One step of a call in the worker, or of one of its processes. -/
inductive Action (J : Type*)
  | openPipe (j : J)
  | abort (j : J)
  | fork (j : J)
  | drop (j : J)
  | closeReader (j : J) (e : End)
  | childDrop (j : J)
  | forkInner (j : J)
  | forkCompiler (j : J)
  | exec (j : J) (role : Role)
  | exit (j : J) (role : Role)
  deriving DecidableEq, Repr

/-- Move a call on. -/
def State.setCall (s : State J) (j : J) (call : Call) : State J :=
  { s with calls := Function.update s.calls j call }

/-- Replace a process. -/
def State.setProc (s : State J) (j : J) (role : Role) (p : Option (Process J)) : State J :=
  { s with procs := Function.update s.procs j (Function.update (s.procs j) role p) }

/-- One step of the worker process and its children. -/
def step (s : State J) : Action J → Option (State J)
  | .openPipe j =>
    match s.calls j with
    | .opening (p :: rest) =>
      some { s.setCall j (.opening rest) with worker := s.worker.install j [(p, .read), (p, .write)] }
    | _ => none
  | .abort j =>
    match s.calls j with
    -- a failed `pipe` or `fork`, a failed read of the ready byte, a failed attach
    | .opening _ | .dropping [(.ready, .read), (.start, .write)] | .dropping [(.start, .write)] =>
      some (s.setCall j .aborting)
    | _ => none
  | .fork j =>
    match s.calls j with
    | .opening [] =>
      some ((s.setCall j (.dropping (parentDrops ++ handshakeDrops))).setProc j .outer
        (some ⟨s.worker, childDrops, false⟩))
    | _ => none
  | .drop j =>
    match s.calls j with
    | .dropping (e :: rest) => some { s.setCall j (.dropping rest) with worker := s.worker.close j e }
    | .dropping [] => some (s.setCall j .reading)
    -- variables are dropped in the reverse order of their declaration
    | .aborting =>
      match declarationOrder.reverse.find? (· ∈ s.worker j) with
      | some e => some { s with worker := s.worker.close j e }
      | none => none
    | _ => none
  | .closeReader j e =>
    match s.calls j with
    | .reading => if e ∈ s.worker j then some { s with worker := s.worker.close j e } else none
    | _ => none
  | .childDrop j =>
    match s.procs j .outer with
    | some ⟨table, e :: rest, executed⟩ => some (s.setProc j .outer (some ⟨table.close j e, rest, executed⟩))
    | _ => none
  | .forkInner j =>
    match s.procs j .outer, s.procs j .inner with
    | some ⟨table, [], _⟩, none => some (s.setProc j .inner (some ⟨table, [], false⟩))
    | _, _ => none
  | .forkCompiler j =>
    match s.procs j .inner, s.procs j .compiler with
    | some ⟨table, _, false⟩, none => some (s.setProc j .compiler (some ⟨table, [], false⟩))
    | _, _ => none
  | .exec j role =>
    match role, s.procs j role with
    | .inner, some ⟨table, drops, false⟩ | .compiler, some ⟨table, drops, false⟩ =>
      some (s.setProc j role (some ⟨table.onExec closeOnExec, drops, true⟩))
    | _, _ => none
  | .exit j role =>
    match s.procs j role with
    | some _ => some (s.setProc j role none)
    | none => none

/-- The call has reached the point at which it reads the pipe, its own copies of the writing
end being dropped. -/
def Call.reads : Call → PipeName → Bool
  | .dropping rest, .ready => rest == handshakeDrops
  | .reading, .stdout | .reading, .stderr | .reading, .compile | .reading, .artifact | .reading, .phase => true
  | _, _ => false

/-- The descriptors of overlapping calls do not meet. -/
structure Isolated (s : State J) : Prop where
  /-- An executed program holds no end of another call. -/
  executed : ∀ j role p, s.procs j role = some p → p.executed = true → ∀ i ≠ j, p.table i = []
  /-- Once the processes of a call are gone, nobody holds a writing end of a pipe it reads. -/
  endOfFile : ∀ j, (∀ role, s.procs j role = none) → ∀ pipe, (s.calls j).reads pipe = true →
    (pipe, .write) ∉ s.worker j ∧ ∀ i role p, s.procs i role = some p → (pipe, .write) ∉ p.table j

/-- A fork copies no end of another call that survives `execvpe`. -/
def Sealed (s : State J) : Action J → Prop
  | .fork j => ∀ i ≠ j, ∀ e ∈ s.worker i, closeOnExec e = true
  | _ => True

instance [Fintype J] (s : State J) (a : Action J) : Decidable (Sealed s a) :=
  match a with
  | .fork j => inferInstanceAs (Decidable (∀ i ≠ j, ∀ e ∈ s.worker i, closeOnExec e = true))
  | .openPipe _ | .abort _ | .drop _ | .closeReader _ _ | .childDrop _ | .forkInner _ | .forkCompiler _
  | .exec _ _ | .exit _ _ => isTrue trivial

/-- What the worker holds of a call, by the point the call has reached. -/
def CallInv : Call → List End → Prop
  | .opening rest, held => (rest = PipeName.all ∧ held = []) ∨ (.stdout, .read) ∈ held
  | .dropping rest, held =>
    (.stdout, .read) ∈ held ∧ (.stdout, .read) ∉ rest ∧
      ∀ pipe, readByWorker pipe = true → (pipe, .write) ∈ held → (pipe, .write) ∈ rest
  | .aborting, held => held = [] ∨ (.stdout, .read) ∈ held
  | .reading, held => ∀ pipe, readByWorker pipe = true → (pipe, .write) ∉ held

/-- What a process of a call may hold of the others. -/
structure ProcInv (j : J) (p : Process J) : Prop where
  foreign : ∀ i ≠ j, ∀ e ∈ p.table i, closeOnExec e = true ∧ ¬ (readByWorker e.1 = true ∧ e.2 = .write)
  executed : p.executed = true → ∀ i ≠ j, p.table i = []

/-- The invariant of runs whose forks are sealed. -/
structure Inv (s : State J) : Prop where
  call : ∀ j, CallInv (s.calls j) (s.worker j)
  proc : ∀ j role p, s.procs j role = some p → ProcInv j p

-- the equations of a step are generated here once, each lemma about an action asks for them
attribute [local simp] step in
omit [DecidableEq J] in
/-- The invariant holds before the first call. -/
theorem inv_init : Inv (State.init : State J) where
  call _ := Or.inl ⟨rfl, rfl⟩
  proc := nofun

/-- A call that moves on changes what the worker holds of itself only. -/
theorem Inv.moveCall {s : State J} (h : Inv s) {j : J} {call : Call} {worker : DescriptorTable J End}
    (hcall : CallInv call (worker j)) (hothers : ∀ i ≠ j, worker i = s.worker i) :
    Inv { s.setCall j call with worker := worker } := by
  refine ⟨fun i => ?_, h.proc⟩
  by_cases hij : i = j
  · subst hij
    simpa [State.setCall] using hcall
  · simpa [State.setCall, hij, hothers i hij] using h.call i

/-- A process may be replaced by one that holds nothing forbidden. -/
theorem Inv.setProc {s : State J} (h : Inv s) {j : J} {role : Role} {p : Option (Process J)}
    (hp : ∀ q, p = some q → ProcInv j q) : Inv (s.setProc j role p) := by
  refine ⟨h.call, fun i role' q hq => ?_⟩
  by_cases hij : i = j
  · subst hij
    by_cases hrole : role' = role
    · subst hrole
      exact hp q (by simpa [State.setProc] using hq)
    · exact h.proc i role' q (by simpa [State.setProc, hrole] using hq)
  · exact h.proc i role' q (by simpa [State.setProc, hij] using hq)

/-- A call of which the worker holds a writing end that it reads is seen by its `stdout`. -/
theorem CallInv.stdout_mem {call : Call} {held : List End} (h : CallInv call held) {pipe : PipeName}
    (hpipe : readByWorker pipe = true) (hheld : (pipe, .write) ∈ held) : (.stdout, .read) ∈ held := by
  cases call with
  | opening rest =>
    refine h.resolve_left fun ⟨_, hempty⟩ => ?_
    simp [hempty] at hheld
  | dropping rest => exact h.1
  | aborting =>
    refine h.resolve_left fun hempty => ?_
    simp [hempty] at hheld
  | reading => exact absurd hheld (h pipe hpipe)

/-- A call that reads a pipe has dropped its own copy of the writing end. -/
theorem CallInv.not_mem_of_reads {call : Call} {held : List End} (h : CallInv call held) {pipe : PipeName}
    (hreads : call.reads pipe = true) : (pipe, .write) ∉ held := by
  cases call with
  | opening rest => cases hreads
  | aborting => cases hreads
  | dropping rest =>
    cases pipe with
    | ready =>
      have hrest : rest = handshakeDrops := by simpa [Call.reads] using hreads
      subst hrest
      intro hheld
      exact absurd (h.2.2 .ready rfl hheld) (by decide)
    | stdout => cases hreads
    | stderr => cases hreads
    | compile => cases hreads
    | start => cases hreads
    | artifact => cases hreads
    | phase => cases hreads
    | proceed => cases hreads
  | reading =>
    refine h pipe ?_
    cases pipe <;> first | rfl | cases hreads

/-- A call that returns early drops the reading end of `stdout` last. -/
theorem CallInv.abort {table : DescriptorTable J End} {j : J} {e : End}
    (h : CallInv .aborting (table j)) (hlast : declarationOrder.reverse.find? (· ∈ table j) = some e) :
    CallInv .aborting (table.close j e j) := by
  have hsplit : declarationOrder.reverse = declarationOrder.tail.reverse ++ [(.stdout, .read)] := by decide
  by_cases he : e = (.stdout, .read)
  · left
    rw [List.eq_nil_iff_forall_not_mem]
    intro e' he'
    obtain ⟨hheld, hne⟩ := DescriptorTable.mem_close_self.mp he'
    rw [hsplit, List.find?_append] at hlast
    cases hfirst : declarationOrder.tail.reverse.find? (· ∈ table j) with
    | some e'' =>
      rw [hfirst, Option.some_or, he] at hlast
      have hmem := List.mem_of_find?_eq_some hfirst
      rw [Option.some.inj hlast] at hmem
      exact absurd hmem (by decide)
    | none =>
      rw [List.find?_eq_none] at hfirst
      have hall : ∀ e : End, e ≠ (.stdout, .read) → e ∈ declarationOrder.tail.reverse := by
        intro e
        obtain ⟨pipe, side⟩ := e
        cases pipe <;> cases side <;> decide
      exact absurd hheld (by simpa using hfirst e' (hall e' (he ▸ hne)))
  · right
    have hheld : e ∈ table j := by simpa using List.find?_some hlast
    refine DescriptorTable.mem_close_self.mpr ⟨?_, Ne.symm he⟩
    refine h.resolve_left fun hempty => ?_
    simp [hempty] at hheld

/-- Opening a pipe keeps the invariant. -/
theorem openPipe_inv {s t : State J} {j : J} (h : Inv s) (hstep : step s (.openPipe j) = some t) : Inv t := by
  simp only [step] at hstep
  split at hstep
  · rename_i p rest hcall
    cases hstep
    refine h.moveCall ?_ fun i hij => DescriptorTable.install_of_ne hij _
    have hbefore := h.call j
    rw [hcall] at hbefore
    rw [DescriptorTable.install_self]
    rcases hbefore with ⟨hall, _⟩ | hheld
    · right
      have hp : p = .stdout := (List.cons.inj hall).1
      simp [hp]
    · exact Or.inr (List.mem_append_right _ hheld)
  · cases hstep

/-- Returning early keeps the invariant. -/
theorem abort_inv {s t : State J} {j : J} (h : Inv s) (hstep : step s (.abort j) = some t) : Inv t := by
  have hbefore := h.call j
  have hmove (hheld : CallInv .aborting (s.worker j)) : Inv (s.setCall j .aborting) :=
    h.moveCall hheld fun i _ => rfl
  simp only [step] at hstep
  split at hstep
  · rename_i hcall
    cases hstep
    rw [hcall] at hbefore
    exact hmove (hbefore.imp_left And.right)
  · rename_i hcall
    cases hstep
    rw [hcall] at hbefore
    exact hmove (Or.inr hbefore.1)
  · rename_i hcall
    cases hstep
    rw [hcall] at hbefore
    exact hmove (Or.inr hbefore.1)
  · cases hstep

/-- Dropping the next end keeps the invariant. -/
theorem drop_inv {s t : State J} {j : J} (h : Inv s) (hstep : step s (.drop j) = some t) : Inv t := by
  have hbefore := h.call j
  simp only [step] at hstep
  split at hstep
  · rename_i e rest hcall
    cases hstep
    rw [hcall] at hbefore
    obtain ⟨hstdout, hnot, hwrites⟩ := hbefore
    refine h.moveCall ⟨?_, fun hrest => hnot (List.mem_cons_of_mem _ hrest), fun pipe hpipe hheld => ?_⟩
      fun i hij => DescriptorTable.close_of_ne hij _
    · refine DescriptorTable.mem_close_self.mpr ⟨hstdout, ?_⟩
      intro hsame
      subst hsame
      exact hnot List.mem_cons_self
    · obtain ⟨hheld, hne⟩ := DescriptorTable.mem_close_self.mp hheld
      exact (List.mem_cons.mp (hwrites pipe hpipe hheld)).resolve_left hne
  · rename_i hcall
    cases hstep
    rw [hcall] at hbefore
    have hreading : CallInv .reading (s.worker j) :=
      fun pipe hpipe hheld => absurd (hbefore.2.2 pipe hpipe hheld) List.not_mem_nil
    exact h.moveCall hreading fun i _ => rfl
  · rename_i hcall
    split at hstep
    · rename_i e hlast
      cases hstep
      rw [hcall] at hbefore
      have hmove := h.moveCall (hbefore.abort hlast) fun i hij => DescriptorTable.close_of_ne hij e
      have hsame : s.setCall j .aborting = s := by
        simp [State.setCall, ← hcall]
      rwa [hsame] at hmove
    · cases hstep
  · cases hstep

/-- A reader thread that ends keeps the invariant. -/
theorem closeReader_inv {s t : State J} {j : J} {e : End} (h : Inv s)
    (hstep : step s (.closeReader j e) = some t) : Inv t := by
  have hbefore := h.call j
  simp only [step] at hstep
  split at hstep
  · rename_i hcall
    split at hstep
    · cases hstep
      rw [hcall] at hbefore
      have hreading : CallInv .reading (s.worker.close j e j) :=
        fun pipe hpipe hheld => hbefore pipe hpipe (DescriptorTable.mem_close_self.mp hheld).1
      have hmove := h.moveCall hreading fun i hij => DescriptorTable.close_of_ne hij e
      have hsame : s.setCall j .reading = s := by
        simp [State.setCall, ← hcall]
      rwa [hsame] at hmove
    · cases hstep
  · cases hstep

/-- A sealed fork keeps the invariant: what it copies of other calls is closed on execution, and
contains no end that would keep a reader of theirs waiting. -/
theorem fork_inv {s t : State J} {j : J} (h : Inv s) (hsealed : Sealed s (.fork j))
    (hstep : step s (.fork j) = some t) : Inv t := by
  have hbefore := h.call j
  simp only [step] at hstep
  split at hstep
  · rename_i hcall
    cases hstep
    rw [hcall] at hbefore
    have hstdout : (.stdout, .read) ∈ s.worker j := hbefore.resolve_left fun ⟨hall, _⟩ => by cases hall
    have hdropping : CallInv (.dropping (parentDrops ++ handshakeDrops)) (s.worker j) := by
      refine ⟨hstdout, by decide, fun pipe hpipe _ => ?_⟩
      cases pipe <;> first | decide | cases hpipe
    have hmove : Inv (s.setCall j (.dropping (parentDrops ++ handshakeDrops))) :=
      h.moveCall hdropping fun i _ => rfl
    refine hmove.setProc fun q hq => ?_
    cases hq
    refine ⟨fun i hij e he => ⟨hsealed i hij e he, fun hwrite => ?_⟩, nofun⟩
    have hmem : (e.1, Side.write) ∈ s.worker i := hwrite.2 ▸ he
    exact absurd (hsealed i hij _ ((h.call i).stdout_mem hwrite.1 hmem)) (by decide)
  · cases hstep

/-- A child that drops an end of its own call keeps the invariant. -/
theorem childDrop_inv {s t : State J} {j : J} (h : Inv s) (hstep : step s (.childDrop j) = some t) : Inv t := by
  simp only [step] at hstep
  split at hstep
  · rename_i table e rest executed hproc
    cases hstep
    have hbefore := h.proc j _ _ hproc
    have hsame (i : J) (hij : i ≠ j) : table.close j e i = table i := DescriptorTable.close_of_ne hij e
    refine h.setProc fun q hq => ?_
    cases hq
    refine ⟨fun i hij e' he' => ?_, fun hexecuted i hij => ?_⟩
    · dsimp only at he'
      rw [hsame i hij] at he'
      exact hbefore.foreign i hij e' he'
    · exact (hsame i hij).trans (hbefore.executed hexecuted i hij)
  · cases hstep

/-- A forked copy of a process holds nothing that the process did not. -/
theorem Inv.copy {s : State J} (h : Inv s) {j : J} {role role' : Role} {p : Process J}
    (hproc : s.procs j role = some p) (drops : List End) : Inv (s.setProc j role' (some ⟨p.table, drops, false⟩)) := by
  refine h.setProc fun q hq => ?_
  cases hq
  exact ⟨(h.proc j _ _ hproc).foreign, nofun⟩

/-- A process that is executed keeps nothing of another call. -/
theorem Inv.exec {s : State J} (h : Inv s) {j : J} {role : Role} {table : DescriptorTable J End} {drops : List End}
    (hproc : s.procs j role = some ⟨table, drops, false⟩) :
    Inv (s.setProc j role (some ⟨table.onExec closeOnExec, drops, true⟩)) := by
  have hnil : ∀ i ≠ j, table.onExec closeOnExec i = [] :=
    fun i hij => DescriptorTable.onExec_eq_nil fun e he => ((h.proc j _ _ hproc).foreign i hij e he).1
  refine h.setProc fun q hq => ?_
  cases hq
  exact ⟨fun i hij e he => by simp [hnil i hij] at he, fun _ i hij => hnil i hij⟩

/-- Every step whose forks are sealed keeps the invariant. -/
theorem step_inv (s : State J) (a : Action J) (t : State J) (h : Inv s) (hsealed : Sealed s a)
    (hstep : step s a = some t) : Inv t := by
  cases a with
  | openPipe j => exact openPipe_inv h hstep
  | abort j => exact abort_inv h hstep
  | fork j => exact fork_inv h hsealed hstep
  | drop j => exact drop_inv h hstep
  | closeReader j e => exact closeReader_inv h hstep
  | childDrop j => exact childDrop_inv h hstep
  | forkInner j | forkCompiler j =>
    simp only [step] at hstep
    split at hstep
    · rename_i hproc _
      cases hstep
      exact h.copy hproc _
    · cases hstep
  | exec j role =>
    simp only [step] at hstep
    split at hstep
    · rename_i hproc
      cases hstep
      exact h.exec hproc
    · rename_i hproc
      cases hstep
      exact h.exec hproc
    · cases hstep
  | exit j role =>
    simp only [step] at hstep
    split at hstep
    · cases hstep
      exact h.setProc nofun
    · cases hstep

/-- What a call reads is read by the worker. -/
theorem readByWorker_of_reads {call : Call} {pipe : PipeName} (h : call.reads pipe = true) :
    readByWorker pipe = true := by
  cases call <;> cases pipe <;> first | rfl | cases h

/-- In every run whose forks copy nothing of another call that survives `execvpe`, no program
holds an end of another call, and the readers of a call see the end of file with its processes. -/
theorem isolated_of_sealed {s : State J} (hreached : Reaches step Sealed State.init s) : Isolated s := by
  have hinv := hreached.invariant Inv inv_init step_inv
  refine ⟨fun j role p hp => (hinv.proc j role p hp).executed, fun j hgone pipe hreads => ?_⟩
  refine ⟨(hinv.call j).not_mem_of_reads hreads, fun i role p hp hheld => ?_⟩
  by_cases hij : i = j
  · rw [hij, hgone role] at hp
    cases hp
  · exact ((hinv.proc i role p hp).foreign j (Ne.symm hij) _ hheld).2 ⟨readByWorker_of_reads hreads, rfl⟩

/-- The steps of a call up to the moment its program is executed. -/
def launch (j : J) : List (Action J) :=
  List.replicate PipeName.all.length (.openPipe j) ++ [.fork j] ++
    List.replicate childDrops.length (.childDrop j) ++ [.forkInner j, .exec j .inner]

/-- The steps that end a launched call. -/
def land (j : J) : List (Action J) :=
  [.exit j .inner, .exit j .outer] ++ List.replicate 11 (.drop j) ++
    [(.stdout, .read), (.stderr, .read), (.compile, .read), (.artifact, .read), (.phase, .read),
      (.proceed, .write)].map (Action.closeReader j)

/-- A call that follows another one is isolated from it. -/
theorem isolated_of_sealed_sequential :
    ∃ s, runActions (checkedStep step Sealed) State.init (launch false ++ land false ++ launch true) = some s ∧
      (s.procs true .inner).map Process.executed = some true ∧ Isolated s := by
  have hrun : runActions (checkedStep step Sealed) State.init (launch false ++ land false ++ launch true) =
      some _ := rfl
  exact ⟨_, hrun, rfl, isolated_of_sealed (.of_runActions _ hrun)⟩

/-- A program launched while another call holds its first pipe inherits both ends of it. -/
theorem overlappingLaunch_leaks :
    ∃ s : State Bool, Reachable step State.init s ∧ ¬ Isolated s := by
  refine ⟨_, .of_runActions (.openPipe false :: launch true) rfl, fun h => ?_⟩
  exact absurd (h.executed true .inner _ rfl rfl false (by decide)) (by decide)

end ZeroCode.Sandbox.PipeIsolation
