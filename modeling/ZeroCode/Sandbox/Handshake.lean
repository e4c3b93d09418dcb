import ZeroCode.Foundation.Transition
import ZeroCode.Sandbox.Child

/-!
# The start handshake

After the fork the parent and the intermediate child meet over two pipes: the child
reports that it entered its namespaces, and waits until the parent has written its
uid and gid maps and attached it to the cgroup. PID 1 is forked only then, and becomes
a member of whatever cgroup its own parent is in at that moment.

A read returns at the end of the file as well, and the code looks at no byte count. A
parent that gives up closes its end of the start pipe, which the child cannot tell
from an acknowledgement.
-/

namespace ZeroCode.Sandbox.Handshake

open ZeroCode.Foundation

/-- Where the parent is, from the fork to its wait; `returned` is an early return with an error. -/
inductive ParentPc
  | dropEnds
  | readReady
  | writeSetgroups
  | writeUidMap
  | writeGidMap
  | attach
  | writeStart
  | dropStart
  | waiting
  | returned
  deriving DecidableEq, Repr

/-- Where the intermediate child is. -/
inductive ChildPc
  | dropEnds
  | unshare
  | writeReady
  | readStart
  | forkSandbox
  | relay
  | exited
  deriving DecidableEq, Repr

/-- Where PID 1 of the new namespace is. -/
inductive SandboxPc
  | absent
  | setup (rest : List SetupStep)
  | compileChild (rest : List SetupStep)
  | compiling
  | runExec
  | running
  | exited
  deriving DecidableEq, Repr

/-- The three processes of one job, the bytes in their two pipes and what the parent set up. -/
structure State where
  parent : ParentPc
  child : ChildPc
  sandbox : SandboxPc
  readyByte : Bool
  startByte : Bool
  uidMap : Bool
  gidMap : Bool
  childAttached : Bool
  sandboxAttached : Bool
  deriving DecidableEq, Repr

/-- The moment after the fork. -/
def State.init : State where
  parent := .dropEnds
  child := .dropEnds
  sandbox := .absent
  readyByte := false
  startByte := false
  uidMap := false
  gidMap := false
  childAttached := false
  sandboxAttached := false

/-- One process takes its next step, which may fail; or the wall clock kills the cgroup. -/
inductive Action
  | parent (fails : Bool)
  | child (fails : Bool)
  | sandbox (fails : Bool)
  | timeout
  deriving DecidableEq, Repr

/-- The parent has not yet dropped its end of the start pipe. -/
def ParentPc.holdsStart : ParentPc → Bool
  | .waiting | .returned => false
  | _ => true

/-- Some process still holds a write end of the ready pipe. -/
def State.readyWriterOpen (s : State) : Bool :=
  s.parent == .dropEnds || s.child != .exited || (s.sandbox != .absent && s.sandbox != .exited)

/-- Some process still holds a write end of the start pipe. -/
def State.startWriterOpen (s : State) : Bool := s.parent.holdsStart || s.child == .dropEnds

/-- A one-byte read returns with a byte or at the end of the file, and blocks otherwise. -/
def readReturns (byte writerOpen : Bool) : Bool := byte || !writerOpen

/-- Kill every member of the cgroup. -/
def State.kill (s : State) : State :=
  { s with
    child := if s.childAttached then .exited else s.child
    sandbox := if s.sandboxAttached then .exited else s.sandbox }

/-- The next step of the parent. -/
def parentStep (s : State) (fails : Bool) : Option State :=
  match s.parent with
  | .dropEnds => some { s with parent := .readReady }
  | .readReady =>
    if fails then some { s with parent := .returned }
    else if readReturns s.readyByte s.readyWriterOpen then
      some { s with parent := .writeSetgroups, readyByte := false }
    else none
  -- a failed write of a map kills the cgroup, is logged, and the handshake goes on
  | .writeSetgroups =>
    if fails then some { s.kill with parent := .attach } else some { s with parent := .writeUidMap }
  | .writeUidMap =>
    if fails then some { s.kill with parent := .attach }
    else some { s with parent := .writeGidMap, uidMap := true }
  | .writeGidMap =>
    if fails then some { s.kill with parent := .attach }
    else some { s with parent := .attach, gidMap := true }
  | .attach =>
    if fails then some { s with parent := .returned }
    else some { s with parent := .writeStart, childAttached := true }
  | .writeStart =>
    if fails then some { s with parent := .dropStart }
    else some { s with parent := .dropStart, startByte := true }
  | .dropStart => some { s with parent := .waiting }
  | .waiting | .returned => none

/-- The next step of the intermediate child. -/
def childStep (s : State) (fails : Bool) : Option State :=
  match s.child with
  | .dropEnds => some { s with child := .unshare }
  | .unshare => if fails then some { s with child := .exited } else some { s with child := .writeReady }
  | .writeReady =>
    if fails then some { s with child := .exited }
    else some { s with child := .readStart, readyByte := true }
  | .readStart =>
    if fails then some { s with child := .exited }
    else if readReturns s.startByte s.startWriterOpen then
      some { s with child := .forkSandbox, startByte := false }
    else none
  | .forkSandbox =>
    if fails then some { s with child := .exited }
    else some { s with child := .relay, sandbox := .setup sandboxSetup, sandboxAttached := s.childAttached }
  | .relay => if s.sandbox = .exited then some { s with child := .exited } else none
  | .exited => none

/-- The next step of PID 1 of a job that does or does not compile first. -/
def sandboxStep (compiles : Bool) (s : State) (fails : Bool) : Option State :=
  match s.sandbox with
  | .absent | .exited => none
  | .setup [] =>
    if compiles then some { s with sandbox := .compileChild [.compileFork, .compileDup2Stderr, .compileExec] }
    else some { s with sandbox := .runExec }
  | .setup (_ :: rest) => if fails then some { s with sandbox := .exited } else some { s with sandbox := .setup rest }
  | .compileChild [] => some { s with sandbox := .compiling }
  | .compileChild (_ :: rest) =>
    if fails then some { s with sandbox := .exited } else some { s with sandbox := .compileChild rest }
  | .compiling => if fails then some { s with sandbox := .exited } else some { s with sandbox := .runExec }
  | .runExec => if fails then some { s with sandbox := .exited } else some { s with sandbox := .running }
  | .running => some { s with sandbox := .exited }

/-- One step of the job. -/
def step (compiles : Bool) (s : State) : Action → Option State
  | .parent fails => parentStep s fails
  | .child fails => childStep s fails
  | .sandbox fails => sandboxStep compiles s fails
  | .timeout => if s.parent = .waiting then some s.kill else none

/-- PID 1 executes submitted code: the compiler on it, or the program itself. -/
def SandboxPc.executes : SandboxPc → Bool
  | .compiling | .running => true
  | _ => false

/-- Submitted code runs only behind written maps and inside the cgroup. -/
def Contained (s : State) : Prop :=
  s.sandbox.executes = true → s.uidMap = true ∧ s.gidMap = true ∧ s.sandboxAttached = true

/-- The steps of the parent that owe the child a part of its setup. -/
def ParentPc.owes : ParentPc → Bool
  | .readReady | .writeSetgroups | .writeUidMap | .writeGidMap | .attach => true
  | _ => false

/-- The parent gives up a part of the setup only after the child is gone. -/
def Disciplined (s : State) (a : Action) : Prop :=
  a = .parent true → s.parent.owes = true → s.child = .exited

instance (s : State) (a : Action) : Decidable (Disciplined s a) :=
  inferInstanceAs (Decidable (a = .parent true → s.parent.owes = true → s.child = .exited))

/-- The parent has neither acknowledged the child nor given up its start pipe. -/
def ParentPc.holdsBack : ParentPc → Bool
  | .writeStart | .dropStart | .waiting | .returned => false
  | _ => true

/-- The child is still in front of its acknowledgement, or gone. -/
def ChildPc.heldBack : ChildPc → Bool
  | .forkSandbox | .relay => false
  | _ => true

/-- PID 1 is alive. -/
def SandboxPc.alive : SandboxPc → Bool
  | .absent | .exited => false
  | _ => true

/-- What the parent owes the child before it acknowledges. -/
structure Served (s : State) : Prop where
  uidMap : s.uidMap = true
  gidMap : s.gidMap = true
  attached : s.childAttached = true

/-- The state of a handshake in which the parent gave up nothing a living child depends on. -/
structure Inv (s : State) : Prop where
  waits : s.parent.holdsBack = true → s.child.heldBack = true ∧ s.startByte = false
  uidMapWritten : s.parent = .writeGidMap → s.uidMap = true ∨ s.child = .exited
  mapsWritten : s.parent = .attach → (s.uidMap = true ∧ s.gidMap = true) ∨ s.child = .exited
  served : s.parent.holdsBack = false → Served s ∨ s.child = .exited
  contained : s.sandbox.alive = true → s.uidMap = true ∧ s.gidMap = true ∧ s.sandboxAttached = true

/-- The invariant holds after the fork. -/
theorem inv_init : Inv State.init where
  waits _ := ⟨rfl, rfl⟩
  uidMapWritten := nofun
  mapsWritten := nofun
  served := nofun
  contained := nofun

/-- A child that was already gone is gone after the cgroup was killed. -/
theorem kill_child_exited {s : State} (hexited : s.child = .exited) : s.kill.child = .exited := by
  simp [State.kill, hexited]

/-- Killing the cgroup only ends processes. -/
theorem Inv.kill {s : State} (h : Inv s) : Inv s.kill := by
  refine ⟨fun hback => ⟨?_, (h.waits hback).2⟩, fun hpc => (h.uidMapWritten hpc).imp_right kill_child_exited,
    fun hpc => (h.mapsWritten hpc).imp_right kill_child_exited, fun hback => ?_, fun halive => ?_⟩
  · simp only [State.kill]
    split
    · rfl
    · exact (h.waits hback).1
  · exact (h.served hback).imp (fun hserved => ⟨hserved.uidMap, hserved.gidMap, hserved.attached⟩) kill_child_exited
  · simp only [State.kill] at halive
    split at halive
    · cases halive
    · exact h.contained halive

/-- A child that passed its acknowledgement was served. -/
theorem Inv.served_of_passed {s : State} (h : Inv s) (hpassed : s.child = .forkSandbox) : Served s := by
  have hback : s.parent.holdsBack = false := by
    by_contra hholds
    have hheld := (h.waits (by simpa using hholds)).1
    rw [hpassed] at hheld
    cases hheld
  refine (h.served hback).resolve_right fun hexited => ?_
  rw [hpassed] at hexited
  cases hexited

/-- Once the child is gone the parent may move to any point without owing it anything. -/
theorem Inv.moveParent {s : State} (h : Inv s) (hexited : s.child = .exited) (hbyte : s.startByte = false)
    (pc : ParentPc) : Inv { s with parent := pc } :=
  ⟨fun _ => ⟨by rw [hexited]; rfl, hbyte⟩, fun _ => Or.inr hexited, fun _ => Or.inr hexited,
    fun _ => Or.inr hexited, h.contained⟩

/-- A map that cannot be written is given up once the child is gone: the sandbox is killed, and the parent attaches. -/
theorem Inv.failMap {s : State} (h : Inv s) (howes : s.parent.owes = true) (hback : s.parent.holdsBack = true)
    (hdisciplined : Disciplined s (.parent true)) : Inv { s.kill with parent := .attach } :=
  h.kill.moveParent (kill_child_exited (hdisciplined rfl howes)) (h.waits hback).2 .attach

/-- Steps of the parent keep the invariant, as long as it gives up nothing a living child depends on. -/
theorem parentStep_inv {s t : State} {fails : Bool} (h : Inv s) (hdisciplined : Disciplined s (.parent fails))
    (hstep : parentStep s fails = some t) : Inv t := by
  unfold parentStep at hstep
  cases hpc : s.parent with
  | dropEnds =>
    simp only [hpc, Option.some.injEq] at hstep
    subst hstep
    exact ⟨fun _ => h.waits (by rw [hpc]; rfl), nofun, nofun, nofun, h.contained⟩
  | readReady =>
    simp only [hpc] at hstep
    have hwaits := h.waits (by rw [hpc]; rfl)
    cases fails with
    | true =>
      cases hstep
      exact h.moveParent (hdisciplined rfl (by rw [hpc]; rfl)) hwaits.2 .returned
    | false =>
      simp only [Bool.false_eq_true, if_false] at hstep
      split at hstep
      · cases hstep
        exact ⟨fun _ => hwaits, nofun, nofun, nofun, h.contained⟩
      · cases hstep
  | writeSetgroups =>
    simp only [hpc] at hstep
    have hwaits := h.waits (by rw [hpc]; rfl)
    cases fails with
    | true =>
      cases hstep
      exact h.failMap (by rw [hpc]; rfl) (by rw [hpc]; rfl) hdisciplined
    | false =>
      cases hstep
      exact ⟨fun _ => hwaits, nofun, nofun, nofun, h.contained⟩
  | writeUidMap =>
    simp only [hpc] at hstep
    have hwaits := h.waits (by rw [hpc]; rfl)
    cases fails with
    | true =>
      cases hstep
      exact h.failMap (by rw [hpc]; rfl) (by rw [hpc]; rfl) hdisciplined
    | false =>
      cases hstep
      exact ⟨fun _ => hwaits, fun _ => Or.inl rfl, nofun, nofun, fun halive => ⟨rfl, (h.contained halive).2⟩⟩
  | writeGidMap =>
    simp only [hpc] at hstep
    have hwaits := h.waits (by rw [hpc]; rfl)
    cases fails with
    | true =>
      cases hstep
      exact h.failMap (by rw [hpc]; rfl) (by rw [hpc]; rfl) hdisciplined
    | false =>
      cases hstep
      refine ⟨fun _ => hwaits, nofun, fun _ => ?_, nofun, fun halive => ?_⟩
      · exact (h.uidMapWritten hpc).imp_left fun huid => ⟨huid, rfl⟩
      · exact ⟨(h.contained halive).1, rfl, (h.contained halive).2.2⟩
  | attach =>
    simp only [hpc] at hstep
    have hwaits := h.waits (by rw [hpc]; rfl)
    cases fails with
    | true =>
      cases hstep
      have hexited := hdisciplined rfl (by rw [hpc]; rfl)
      exact h.moveParent hexited hwaits.2 .returned
    | false =>
      cases hstep
      refine ⟨nofun, nofun, nofun, fun _ => ?_, h.contained⟩
      exact (h.mapsWritten hpc).imp_left fun hmaps => ⟨hmaps.1, hmaps.2, rfl⟩
  | writeStart =>
    simp only [hpc] at hstep
    have hserved := h.served (by rw [hpc]; rfl)
    cases fails with
    | true =>
      cases hstep
      exact ⟨nofun, nofun, nofun, fun _ => hserved.imp_left fun ⟨hu, hg, ha⟩ => ⟨hu, hg, ha⟩, h.contained⟩
    | false =>
      cases hstep
      exact ⟨nofun, nofun, nofun, fun _ => hserved.imp_left fun ⟨hu, hg, ha⟩ => ⟨hu, hg, ha⟩, h.contained⟩
  | dropStart =>
    simp only [hpc] at hstep
    have hserved := h.served (by rw [hpc]; rfl)
    cases hstep
    exact ⟨nofun, nofun, nofun, fun _ => hserved.imp_left fun ⟨hu, hg, ha⟩ => ⟨hu, hg, ha⟩, h.contained⟩
  | waiting => simp [hpc] at hstep
  | returned => simp [hpc] at hstep

/-- A child that moves while it is held back keeps the invariant. -/
theorem Inv.moveChild {s : State} (h : Inv s) (hnotExited : s.child ≠ .exited) (ready : Bool) {pc : ChildPc}
    (hpc : pc.heldBack = true) : Inv { s with child := pc, readyByte := ready } := by
  have hserved (hback : s.parent.holdsBack = false) : Served s := (h.served hback).resolve_right hnotExited
  refine ⟨fun hback => ⟨hpc, (h.waits hback).2⟩, fun hp => Or.inl ?_, fun hp => Or.inl ?_, fun hback => Or.inl ?_,
    h.contained⟩
  · exact (h.uidMapWritten hp).resolve_right hnotExited
  · exact (h.mapsWritten hp).resolve_right hnotExited
  · exact ⟨(hserved hback).uidMap, (hserved hback).gidMap, (hserved hback).attached⟩

/-- Steps of the child keep the invariant: it reads an acknowledgement only after it was served. -/
theorem childStep_inv {s t : State} {fails : Bool} (h : Inv s) (hstep : childStep s fails = some t) : Inv t := by
  unfold childStep at hstep
  cases hpc : s.child with
  | dropEnds =>
    simp only [hpc, Option.some.injEq] at hstep
    subst hstep
    exact h.moveChild (by simp [hpc]) s.readyByte rfl
  | unshare =>
    simp only [hpc] at hstep
    cases fails <;> cases hstep <;> exact h.moveChild (by simp [hpc]) s.readyByte rfl
  | writeReady =>
    simp only [hpc] at hstep
    cases fails with
    | true =>
      cases hstep
      exact h.moveChild (by simp [hpc]) s.readyByte rfl
    | false =>
      cases hstep
      exact h.moveChild (by simp [hpc]) true rfl
  | readStart =>
    simp only [hpc] at hstep
    cases fails with
    | true =>
      cases hstep
      exact h.moveChild (by simp [hpc]) s.readyByte rfl
    | false =>
      simp only [Bool.false_eq_true, if_false] at hstep
      split at hstep
      · rename_i hreturns
        cases hstep
        -- a parent that still holds back would leave the pipe empty and open
        have hback : s.parent.holdsBack = false := by
          by_contra hholds
          have hwaits := h.waits (by simpa using hholds)
          have hopen : s.startWriterOpen = true := by
            cases hparent : s.parent <;> simp_all [State.startWriterOpen, ParentPc.holdsStart, ParentPc.holdsBack]
          rw [hwaits.2, hopen] at hreturns
          cases hreturns
        have hserved : Served s := (h.served hback).resolve_right (by simp [hpc])
        refine ⟨fun hholds => ?_, fun hp => ?_, fun hp => ?_, fun _ => Or.inl ?_, h.contained⟩
        · rw [hback] at hholds
          cases hholds
        · exact Or.inl hserved.uidMap
        · exact Or.inl ⟨hserved.uidMap, hserved.gidMap⟩
        · exact ⟨hserved.uidMap, hserved.gidMap, hserved.attached⟩
      · cases hstep
  | forkSandbox =>
    simp only [hpc] at hstep
    cases fails with
    | true =>
      cases hstep
      exact h.moveChild (by simp [hpc]) s.readyByte rfl
    | false =>
      cases hstep
      have hserved := h.served_of_passed hpc
      refine ⟨fun hholds => ?_, fun _ => Or.inl hserved.uidMap, fun _ => Or.inl ⟨hserved.uidMap, hserved.gidMap⟩,
        fun _ => Or.inl ⟨hserved.uidMap, hserved.gidMap, hserved.attached⟩,
        fun _ => ⟨hserved.uidMap, hserved.gidMap, hserved.attached⟩⟩
      have hheld := (h.waits hholds).1
      rw [hpc] at hheld
      cases hheld
  | relay =>
    simp only [hpc] at hstep
    split at hstep
    · cases hstep
      exact h.moveChild (by simp [hpc]) s.readyByte rfl
    · cases hstep
  | exited => simp [hpc] at hstep

/-- PID 1 goes on only while it is alive, and changes nothing but its own position. -/
theorem sandboxStep_cases {compiles : Bool} {s t : State} {fails : Bool}
    (hstep : sandboxStep compiles s fails = some t) :
    s.sandbox.alive = true ∧ ∃ pc, t = { s with sandbox := pc } := by
  unfold sandboxStep at hstep
  split at hstep
  · cases hstep
  · cases hstep
  · rename_i hpc
    split at hstep <;> cases hstep <;> exact ⟨by rw [hpc]; rfl, _, rfl⟩
  · rename_i hpc
    split at hstep <;> cases hstep <;> exact ⟨by rw [hpc]; rfl, _, rfl⟩
  · rename_i hpc
    cases hstep
    exact ⟨by rw [hpc]; rfl, _, rfl⟩
  · rename_i hpc
    split at hstep <;> cases hstep <;> exact ⟨by rw [hpc]; rfl, _, rfl⟩
  · rename_i hpc
    split at hstep <;> cases hstep <;> exact ⟨by rw [hpc]; rfl, _, rfl⟩
  · rename_i hpc
    split at hstep <;> cases hstep <;> exact ⟨by rw [hpc]; rfl, _, rfl⟩
  · rename_i hpc
    cases hstep
    exact ⟨by rw [hpc]; rfl, _, rfl⟩

/-- Every disciplined step keeps the invariant. -/
theorem step_inv {compiles : Bool} (s : State) (a : Action) (t : State) (h : Inv s)
    (hdisciplined : Disciplined s a) (hstep : step compiles s a = some t) : Inv t := by
  cases a with
  | parent fails => exact parentStep_inv h hdisciplined hstep
  | child fails => exact childStep_inv h hstep
  | sandbox fails =>
    obtain ⟨halive, pc, rfl⟩ := sandboxStep_cases hstep
    exact ⟨h.waits, h.uidMapWritten, h.mapsWritten,
      fun hback => (h.served hback).imp_left fun ⟨hu, hg, ha⟩ => ⟨hu, hg, ha⟩, fun _ => h.contained halive⟩
  | timeout =>
    simp only [step] at hstep
    split at hstep
    · cases hstep
      exact h.kill
    · cases hstep

/-- Code that PID 1 executes is executed by a living process. -/
theorem SandboxPc.alive_of_executes {pc : SandboxPc} (h : pc.executes = true) : pc.alive = true := by
  cases pc <;> first | rfl | cases h

/-- In every run whose parent gives up no part of the setup of a living child, submitted code
runs only behind written maps and inside the cgroup. -/
theorem contained_of_disciplined {compiles : Bool} {s : State}
    (hreached : Reaches (step compiles) Disciplined State.init s) : Contained s :=
  fun hexecutes => (hreached.invariant Inv inv_init step_inv).contained (SandboxPc.alive_of_executes hexecutes)

/-- The handshake up to the step by which the parent attaches the child. -/
def beforeAttach : List Action :=
  [.parent false, .child false, .child false, .child false] ++ List.replicate 4 (.parent false)

/-- From the acknowledgement to the execution of a program that needs no compiler. -/
def afterAttach : List Action :=
  [.child false, .child false] ++ List.replicate (sandboxSetup.length + 2) (.sandbox false)

/-- The program of an undisturbed handshake is contained. -/
theorem contained_of_disciplined_undisturbed :
    ∃ s, runActions (checkedStep (step false) Disciplined) State.init
        (beforeAttach ++ List.replicate 3 (.parent false) ++ afterAttach) = some s ∧
      s.sandbox = .running ∧ Contained s := by
  have hrun : runActions (checkedStep (step false) Disciplined) State.init
      (beforeAttach ++ List.replicate 3 (.parent false) ++ afterAttach) = some _ := rfl
  exact ⟨_, hrun, rfl, contained_of_disciplined (.of_runActions _ hrun)⟩

/-- A parent that fails to attach the child closes the start pipe, and the program runs outside the cgroup. -/
theorem attachFailure_escapes :
    ∃ s, Reachable (step false) State.init s ∧ s.sandbox = .running ∧ ¬ Contained s := by
  refine ⟨_, .of_runActions (beforeAttach ++ [.parent true] ++ afterAttach) rfl, rfl, fun hcontained => ?_⟩
  exact absurd (hcontained rfl).2.2 (by decide)

end ZeroCode.Sandbox.Handshake
