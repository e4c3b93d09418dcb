import ZeroCode.Sandbox.Handshake
import ZeroCode.Sandbox.TokenResources

/-!
# What a failed call leaves behind

Every step of `Scratch::create`, `Cgroup::create` and `run` can fail, and most errors pass
straight through a question mark: the arms of `execute` remove what the finished
constructors returned, nobody removes what an unfinished one created, and nobody kills a
forked child. The processes behind the fork go on as in the handshake, beside the parent
and also after it returned, and the second attempt meets whatever the first one left.
-/

namespace ZeroCode.Sandbox.ErrorPaths

open ZeroCode.Core ZeroCode.Foundation
open TokenResources (Reply CgroupFile)

/-- Where the parent is. The flag of the destructors is whether the call returns a result. -/
inductive Pc
  | createDirAll
  | chmod
  | writeSource
  | writeStdin
  | writeCachedProg
  | createCgroup
  | setLimits (rest : List CgroupFile)
  | pipes (rest : List PipeName)
  | fork
  | handshake
  | wait
  | postKillWait
  | join (rest : List Reader)
  | destroyCgroup (ok : Bool)
  | destroyScratch (ok : Bool)
  | returned (ok : Bool)
  deriving DecidableEq, Repr

/-- The two directories of the token, and the processes of this attempt and of the one before. -/
structure State where
  attempt : ℕ
  pc : Pc
  scratch : Bool
  cgroup : Bool
  processes : Option Handshake.State
  earlier : Option Handshake.State
  deriving DecidableEq, Repr

/-- The first attempt begins. -/
def State.init : State where
  attempt := 1
  pc := .createDirAll
  scratch := false
  cgroup := false
  processes := none
  earlier := none

/-- A forked process takes a step of its own, or the kernel kills it. -/
inductive ProcessEvent
  | child (fails : Bool)
  | sandbox (fails : Bool)
  | killChild
  | killSandbox
  deriving DecidableEq, Repr

/-- A step of the parent with the given reply, the wall clock, a forked process of this attempt or
of the one before, or the worker trying again. -/
inductive Action
  | next (reply : Reply)
  | deadline (killFails : Bool)
  | process (e : ProcessEvent)
  | earlierProcess (e : ProcessEvent)
  | retry
  deriving DecidableEq, Repr

/-- The forked child or PID 1 is alive. -/
def alive (hs : Handshake.State) : Bool := hs.child != .exited || hs.sandbox.alive

/-- A living process is in the cgroup. -/
def occupies (hs : Handshake.State) : Bool :=
  (hs.child != .exited && hs.childAttached) || (hs.sandbox.alive && hs.sandboxAttached)

/-- A process of this attempt is alive. -/
def State.live (s : State) : Bool := s.processes.any alive

/-- Move the parent on. -/
def State.goto (s : State) (pc : Pc) : State := { s with pc := pc }

/-- Go on if the call succeeded. -/
def State.onOk (s : State) (reply : Reply) (next error : Pc) : State :=
  if reply = .ok then s.goto next else s.goto error

/-- The steps between the fork and the wait, given where the handshake went. -/
def afterHandshake : Handshake.ParentPc → Pc
  | .returned => .destroyCgroup false
  | .waiting => .wait
  | _ => .handshake

/-- The next step of the parent. -/
def nextStep (job : SandboxJob) (s : State) (reply : Reply) : Option State :=
  match s.pc with
  | .createDirAll =>
    if reply = .ok then some { s with pc := .chmod, scratch := true } else some (s.goto (.returned false))
  | .chmod => some (s.onOk reply .writeSource (.returned false))
  | .writeSource => some (s.onOk reply .writeStdin (.returned false))
  | .writeStdin =>
    some (s.onOk reply (if job.cachedBinary.isSome then .writeCachedProg else .createCgroup) (.returned false))
  | .writeCachedProg => some (s.onOk reply .createCgroup (.returned false))
  | .createCgroup =>
    if reply = .ok ∧ s.cgroup = false then
      some { s with pc := .setLimits [.memoryMax, .memorySwapMax, .cpuMax, .pidsMax], cgroup := true }
    else some (s.goto (.destroyScratch false))
  | .setLimits [] => some (s.goto (.pipes PipeName.all))
  | .setLimits (file :: rest) =>
    -- a kernel without swap control has no such file
    if reply = .ok ∨ (reply = .missing ∧ file = .memorySwapMax) then some (s.goto (.setLimits rest))
    else some (s.goto (.destroyScratch false))
  | .pipes [] => some (s.goto .fork)
  | .pipes (_ :: rest) => some (s.onOk reply (.pipes rest) (.destroyCgroup false))
  | .fork =>
    if reply = .ok then some { s with pc := .handshake, processes := some Handshake.State.init }
    else some (s.goto (.destroyCgroup false))
  | .handshake =>
    match s.processes with
    | some hs => (Handshake.parentStep hs (reply ≠ .ok)).map fun hs =>
        { s with pc := afterHandshake hs.parent, processes := some hs }
    | none => none
  | .wait =>
    -- a child that is still alive is polled again
    if reply = .ok ∧ s.processes.any (fun hs => hs.child != .exited) then some s
    else some (s.onOk reply (.join Reader.all) (.destroyCgroup false))
  | .postKillWait =>
    -- this wait blocks
    if reply = .ok ∧ s.processes.any (fun hs => hs.child != .exited) then none
    else some (s.onOk reply (.join Reader.all) (.destroyCgroup false))
  | .join [] => some (s.goto (.destroyCgroup true))
  | .join (_ :: rest) => some (s.onOk reply (.join rest) (.destroyCgroup false))
  | .destroyCgroup ok =>
    -- a cgroup is removed only when it is empty
    if reply = .ok ∧ s.processes.any occupies = false then some { s with pc := .destroyScratch ok, cgroup := false }
    else some (s.goto (.destroyScratch ok))
  | .destroyScratch ok =>
    if reply = .ok then some { s with pc := .returned ok, scratch := false } else some (s.goto (.returned ok))
  | .returned _ => none

/-- A step of a forked process. -/
def processStep (compiles : Bool) (hs : Handshake.State) : ProcessEvent → Option Handshake.State
  | .child fails => Handshake.childStep hs fails
  | .sandbox fails => Handshake.sandboxStep compiles hs fails
  | .killChild => if hs.child = .exited then none else some { hs with child := .exited }
  | .killSandbox => if hs.sandbox.alive then some { hs with sandbox := .exited } else none

/-- One step of the two attempts. -/
def step (job : SandboxJob) (compiles : Bool) (s : State) : Action → Option State
  | .next reply => nextStep job s reply
  | .deadline killFails =>
    if s.pc = .wait then
      some { s with pc := .postKillWait, processes := if killFails then s.processes else s.processes.map .kill }
    else none
  | .process e => (s.processes.bind fun hs => processStep compiles hs e).map fun hs => { s with processes := some hs }
  | .earlierProcess e => (s.earlier.bind fun hs => processStep compiles hs e).map fun hs => { s with earlier := some hs }
  | .retry =>
    if s.pc = .returned false ∧ s.attempt = 1 then
      some { s with attempt := 2, pc := .createDirAll, processes := none, earlier := s.processes }
    else none

/-- A call that returned an error left no directory and no living process, and so the next attempt
begins as the first one did. -/
structure LeavesNothing (s : State) : Prop where
  returned : s.pc = .returned false → s.scratch = false ∧ s.cgroup = false ∧ s.live = false
  begins : s.pc = .createDirAll → s.scratch = false ∧ s.cgroup = false ∧ s.earlier.any alive = false

/-- The parent gives up the handshake when this step fails. -/
def givesUp (hs : Handshake.State) : Bool := hs.parent == .readReady || hs.parent == .attach

/-- A failure at this point has nothing to leave behind: no file of an unfinished directory, and no
living process. -/
def State.failsTidily (s : State) (reply : Reply) : Bool :=
  match s.pc with
  | .chmod | .writeSource | .writeStdin | .writeCachedProg => false
  | .setLimits (file :: _) => reply == .missing && file == .memorySwapMax
  | .handshake => !s.processes.any fun hs => givesUp hs && alive hs
  | .wait | .postKillWait | .join _ => !s.live
  | .destroyCgroup false | .destroyScratch false => false
  | _ => true

/-- What fails fails tidily. -/
def Tidy (s : State) : Action → Prop
  | .next reply => reply ≠ .ok → s.failsTidily reply = true
  | _ => True

instance (s : State) (a : Action) : Decidable (Tidy s a) :=
  match a with
  | .next reply => inferInstanceAs (Decidable (reply ≠ .ok → s.failsTidily reply = true))
  | .deadline _ | .process _ | .earlierProcess _ | .retry => isTrue trivial

/-- The parent has not forked. -/
def Pc.beforeFork : Pc → Bool
  | .handshake | .wait | .postKillWait | .join _ | .destroyCgroup _ | .destroyScratch _ | .returned _ => false
  | _ => true

/-- The parent is about to return an error. -/
def Pc.erring : Pc → Bool
  | .destroyCgroup false | .destroyScratch false | .returned false => true
  | _ => false

/-- No cgroup is there, or none is left. -/
def Pc.noCgroup : Pc → Bool
  | .createDirAll | .chmod | .writeSource | .writeStdin | .writeCachedProg | .createCgroup | .destroyScratch false
  | .returned false => true
  | _ => false

/-- No scratch directory is there, or none is left. -/
def Pc.noScratch : Pc → Bool
  | .createDirAll | .returned false => true
  | _ => false

/-- What tidy runs keep. -/
structure Inv (s : State) : Prop where
  scratch : s.pc.noScratch = true → s.scratch = false
  cgroup : s.pc.noCgroup = true → s.cgroup = false
  quiet : s.pc.beforeFork = true ∨ s.pc.erring = true → s.live = false
  earlier : s.earlier.any alive = false

/-- Nothing is there before the first attempt. -/
theorem inv_init : Inv State.init where
  scratch _ := rfl
  cgroup _ := rfl
  quiet _ := rfl
  earlier := rfl

/-- Processes that are gone take no step. -/
theorem processStep_gone {compiles : Bool} {hs : Handshake.State} (h : alive hs = false) (e : ProcessEvent) :
    processStep compiles hs e = none := by
  simp only [alive, Bool.or_eq_false_iff, bne_eq_false_iff_eq] at h
  obtain ⟨hchild, hsandbox⟩ := h
  cases e with
  | child fails => simp [processStep, Handshake.childStep, hchild]
  | sandbox fails => cases hpc : hs.sandbox <;> simp_all [processStep, Handshake.sandboxStep, Handshake.SandboxPc.alive]
  | killChild => simp [processStep, hchild]
  | killSandbox => simp [processStep, hsandbox]

/-- Without a living process there is no such step. -/
theorem bind_processStep_gone {compiles : Bool} {processes : Option Handshake.State}
    (h : processes.any alive = false) (e : ProcessEvent) :
    (processes.bind fun hs => processStep compiles hs e) = none := by
  cases processes with
  | none => rfl
  | some hs => exact processStep_gone (by simpa using h) e

/-- Processes that are gone occupy nothing. -/
theorem occupies_gone {hs : Handshake.State} (h : alive hs = false) : occupies hs = false := by
  simp only [alive, Bool.or_eq_false_iff] at h
  simp [occupies, h.1, h.2]

/-- Without a living process the cgroup is empty. -/
theorem State.not_occupied {s : State} (h : s.live = false) : s.processes.any occupies = false := by
  cases hprocesses : s.processes with
  | none => rfl
  | some hs =>
    rw [State.live, hprocesses, Option.any_some] at h
    rw [Option.any_some, occupies_gone h]

/-- A parent that returns from the handshake gave up a step, and changed nothing else. -/
theorem parentStep_returned {hs t : Handshake.State} {fails : Bool} (taken : Handshake.parentStep hs fails = some t)
    (hreturned : t.parent = .returned) : fails = true ∧ givesUp hs = true ∧ alive t = alive hs := by
  cases hpc : hs.parent <;> simp only [Handshake.parentStep, hpc] at taken
  all_goals repeat' split at taken
  all_goals cases taken
  all_goals simp_all [givesUp, alive]

/-- A parent that moves on keeps the invariant, where no more is claimed than before. -/
theorem Inv.goto {s : State} (h : Inv s) {pc : Pc} (hscratch : pc.noScratch = true → s.pc.noScratch = true)
    (hcgroup : pc.noCgroup = true → s.pc.noCgroup = true)
    (hquiet : pc.beforeFork = true ∨ pc.erring = true → s.pc.beforeFork = true ∨ s.pc.erring = true) :
    Inv (s.goto pc) :=
  ⟨fun hpc => h.scratch (hscratch hpc), fun hpc => h.cgroup (hcgroup hpc), fun hpc => h.quiet (hquiet hpc), h.earlier⟩

/-- A parent that has not forked moves on with both directories. -/
theorem Inv.advance {s : State} (h : Inv s) {pc : Pc} (hbefore : s.pc.beforeFork = true)
    (hdirs : pc.noScratch = false ∧ pc.noCgroup = false) : Inv (s.goto pc) :=
  h.goto (by simp [hdirs]) (by simp [hdirs]) fun _ => Or.inl hbefore

/-- A call of the parent behind the fork, whose failure was tidy. -/
theorem Inv.onOk {s : State} (h : Inv s) {reply : Reply} {next : Pc} (hnext : next.beforeFork = false ∧
    next.erring = false) (hnextDirs : next.noScratch = false ∧ next.noCgroup = false)
    (hquiet : reply ≠ .ok → s.live = false) : Inv (s.onOk reply next (.destroyCgroup false)) := by
  rw [State.onOk]
  split
  · exact ⟨by simp [State.goto, hnextDirs], by simp [State.goto, hnextDirs], by simp [State.goto, hnext], h.earlier⟩
  · exact ⟨nofun, nofun, fun _ => hquiet ‹_›, h.earlier⟩

/-- A step of the handshake that the parent gives up only when no process is left. -/
theorem Inv.handshake {s : State} (h : Inv s) {hs hs' : Handshake.State} {fails : Bool}
    (taken : Handshake.parentStep hs fails = some hs')
    (hgone : fails = true → givesUp hs = true → alive hs = false) :
    Inv { s with pc := afterHandshake hs'.parent, processes := some hs' } := by
  cases hreturned : hs'.parent with
  | returned =>
    obtain ⟨hfails, hgivesUp, hsame⟩ := parentStep_returned taken hreturned
    refine ⟨nofun, nofun, fun _ => ?_, h.earlier⟩
    rw [State.live, Option.any_some, hsame, hgone hfails hgivesUp]
  | _ => exact ⟨nofun, nofun, nofun, h.earlier⟩

/-- What never fails tidily did not fail. -/
theorem Tidy.ok {s : State} {reply : Reply} (tidy : Tidy s (.next reply)) (h : s.failsTidily reply = false) :
    reply = .ok := by
  by_contra hno
  have hfails := tidy hno
  rw [h] at hfails
  cases hfails

/-- What fails tidily only without a living process did not meet one. -/
theorem Tidy.quiet {s : State} {reply : Reply} (tidy : Tidy s (.next reply)) (h : s.failsTidily reply = !s.live)
    (hno : reply ≠ .ok) : s.live = false := by
  have hfails := tidy hno
  rw [h] at hfails
  simpa using hfails

/-- The next step of the parent keeps the invariant of tidy runs. -/
theorem nextStep_inv {job : SandboxJob} {s t : State} {reply : Reply} (h : Inv s) (tidy : Tidy s (.next reply))
    (taken : nextStep job s reply = some t) : Inv t := by
  cases hpc : s.pc with
  | createDirAll =>
    simp only [nextStep, hpc] at taken
    split at taken
    all_goals cases taken
    · exact ⟨nofun, fun _ => h.cgroup (by rw [hpc]; rfl), fun _ => h.quiet (Or.inl (by rw [hpc]; rfl)), h.earlier⟩
    · exact h.goto (by simp [hpc, Pc.noScratch]) (by simp [hpc, Pc.noCgroup]) (by simp [hpc, Pc.beforeFork])
  | chmod | writeSource | writeStdin | writeCachedProg =>
    have hok := tidy.ok (by rw [State.failsTidily, hpc])
    simp only [nextStep, hpc, State.onOk, if_pos hok] at taken
    cases taken
    apply h.goto <;> (try split) <;> simp [hpc, Pc.noScratch, Pc.noCgroup, Pc.beforeFork]
  | createCgroup =>
    simp only [nextStep, hpc] at taken
    split at taken
    all_goals cases taken
    · exact ⟨nofun, nofun, fun _ => h.quiet (Or.inl (by rw [hpc]; rfl)), h.earlier⟩
    · exact h.goto (by simp [Pc.noScratch]) (by simp [hpc, Pc.noCgroup]) (by simp [hpc, Pc.beforeFork])
  | setLimits rest =>
    cases rest with
    | nil =>
      simp only [nextStep, hpc] at taken
      cases taken
      exact h.advance (by rw [hpc]; rfl) ⟨rfl, rfl⟩
    | cons file rest =>
      have hgoes : reply = .ok ∨ (reply = .missing ∧ file = .memorySwapMax) := by
        by_cases hok : reply = .ok
        · exact Or.inl hok
        · exact Or.inr (by simpa [State.failsTidily, hpc] using tidy hok)
      simp only [nextStep, hpc, if_pos hgoes] at taken
      cases taken
      exact h.advance (by rw [hpc]; rfl) ⟨rfl, rfl⟩
  | pipes rest =>
    cases rest with
    | nil =>
      simp only [nextStep, hpc] at taken
      cases taken
      exact h.advance (by rw [hpc]; rfl) ⟨rfl, rfl⟩
    | cons pipe rest =>
      simp only [nextStep, hpc, State.onOk] at taken
      split at taken
      all_goals cases taken
      all_goals exact h.advance (by rw [hpc]; rfl) ⟨rfl, rfl⟩
  | fork =>
    simp only [nextStep, hpc] at taken
    split at taken
    all_goals cases taken
    · exact ⟨nofun, nofun, nofun, h.earlier⟩
    · exact h.advance (by rw [hpc]; rfl) ⟨rfl, rfl⟩
  | handshake =>
    simp only [nextStep, hpc] at taken
    split at taken
    · rename_i hs hprocesses
      obtain ⟨hs', hparent, rfl⟩ := Option.map_eq_some_iff.mp taken
      refine h.handshake hparent fun hfails hgivesUp => ?_
      simpa [State.failsTidily, hpc, hprocesses, hgivesUp] using tidy (by simpa using hfails)
    · cases taken
  | wait =>
    have hquiet := tidy.quiet (by rw [State.failsTidily, hpc])
    simp only [nextStep, hpc] at taken
    split at taken
    all_goals cases taken
    · exact h
    · exact h.onOk ⟨rfl, rfl⟩ ⟨rfl, rfl⟩ hquiet
  | postKillWait =>
    have hquiet := tidy.quiet (by rw [State.failsTidily, hpc])
    simp only [nextStep, hpc] at taken
    split at taken
    all_goals cases taken
    exact h.onOk ⟨rfl, rfl⟩ ⟨rfl, rfl⟩ hquiet
  | join rest =>
    have hquiet := tidy.quiet (by rw [State.failsTidily, hpc])
    cases rest with
    | nil =>
      simp only [nextStep, hpc] at taken
      cases taken
      exact h.goto (by simp [Pc.noScratch]) (by simp [Pc.noCgroup]) (by simp [Pc.beforeFork, Pc.erring])
    | cons reader rest =>
      simp only [nextStep, hpc] at taken
      cases taken
      exact h.onOk ⟨rfl, rfl⟩ ⟨rfl, rfl⟩ hquiet
  | destroyCgroup ok =>
    simp only [nextStep, hpc] at taken
    cases ok with
    | true =>
      split at taken
      all_goals cases taken
      all_goals exact ⟨nofun, nofun, nofun, h.earlier⟩
    | false =>
      have hgone := h.quiet (Or.inr (by rw [hpc]; rfl))
      rw [if_pos ⟨tidy.ok (by rw [State.failsTidily, hpc]), State.not_occupied hgone⟩] at taken
      cases taken
      exact ⟨nofun, fun _ => rfl, fun _ => hgone, h.earlier⟩
  | destroyScratch ok =>
    simp only [nextStep, hpc] at taken
    cases ok with
    | true =>
      split at taken
      all_goals cases taken
      all_goals exact ⟨nofun, nofun, nofun, h.earlier⟩
    | false =>
      rw [if_pos (tidy.ok (by rw [State.failsTidily, hpc]))] at taken
      cases taken
      exact ⟨fun _ => rfl, fun _ => h.cgroup (by rw [hpc]; rfl), fun _ => h.quiet (Or.inr (by rw [hpc]; rfl)), h.earlier⟩
  | returned ok =>
    simp only [nextStep, hpc] at taken
    cases taken

/-- Every step keeps the invariant of tidy runs. -/
theorem step_inv {job : SandboxJob} {compiles : Bool} {s t : State} {a : Action} (h : Inv s) (tidy : Tidy s a)
    (taken : step job compiles s a = some t) : Inv t := by
  cases a with
  | next reply => exact nextStep_inv h tidy taken
  | deadline killFails =>
    simp only [step] at taken
    split at taken
    · cases taken
      exact ⟨nofun, nofun, nofun, h.earlier⟩
    · cases taken
  | process e =>
    obtain ⟨hs', hstep, rfl⟩ := Option.map_eq_some_iff.mp taken
    refine ⟨h.scratch, h.cgroup, fun hpc => ?_, h.earlier⟩
    rw [bind_processStep_gone (h.quiet hpc)] at hstep
    cases hstep
  | earlierProcess e =>
    obtain ⟨hs', hstep, rfl⟩ := Option.map_eq_some_iff.mp taken
    rw [bind_processStep_gone h.earlier] at hstep
    cases hstep
  | retry =>
    simp only [step] at taken
    split at taken
    · rename_i hretry
      cases taken
      have hpc := hretry.1
      exact ⟨fun _ => h.scratch (by rw [hpc]; rfl), fun _ => h.cgroup (by rw [hpc]; rfl), fun _ => rfl,
        h.quiet (Or.inr (by rw [hpc]; rfl))⟩
    · cases taken

/-- When every failure of the two attempts is tidy, a call that returned an error leaves nothing
behind. -/
theorem leavesNothing_of_tidy {job : SandboxJob} {compiles : Bool} {s : State}
    (reached : Reaches (step job compiles) Tidy State.init s) : LeavesNothing s := by
  have inv := reached.invariant Inv inv_init fun s a t h tidy taken => step_inv h tidy taken
  refine ⟨fun hpc => ⟨inv.scratch ?_, inv.cgroup ?_, inv.quiet (Or.inr ?_)⟩, fun hpc =>
    ⟨inv.scratch ?_, inv.cgroup ?_, inv.earlier⟩⟩
  all_goals rw [hpc]; rfl

/-- The steps of two attempts, the first of which fails to fork. -/
def forkFails : List Action :=
  List.replicate 19 (.next .ok) ++ [.next .failed, .next .ok, .next .ok, .retry]

/-- After a failed fork the second attempt begins as the first one did. -/
theorem leavesNothing_of_tidy_forkFails : LeavesNothing { State.init with attempt := 2 } :=
  leavesNothing_of_tidy (.of_runActions forkFails
    (by decide : runActions (checkedStep (step (.interpreted ["python3"]) false) Tidy) State.init forkFails = _))

/-- The steps of an attempt whose first limit cannot be written. -/
def limitWriteFails : List Action := List.replicate 5 (.next .ok) ++ [.next .failed, .next .ok]

/-- A limit that cannot be written leaves the cgroup behind. -/
theorem limitWriteFails_leavesCgroup :
    ¬ ∀ job compiles s, Reachable (step job compiles) State.init s → LeavesNothing s := by
  intro h
  have reached : Reachable (step (.interpreted ["python3"]) false) State.init
      { State.init with pc := .returned false, cgroup := true } :=
    .of_runActions limitWriteFails (by decide)
  have hleft := ((h _ _ _ reached).returned rfl).2.1
  cases hleft

/-- A second attempt that meets a cgroup it did not create. -/
structure Doomed (s : State) : Prop where
  attempt : s.attempt = 2
  cgroup : s.cgroup = true
  before : s.pc.noCgroup = true

/-- The next step of the parent does not get past the cgroup. -/
theorem Doomed.nextStep {job : SandboxJob} {s t : State} {reply : Reply} (h : Doomed s)
    (taken : ErrorPaths.nextStep job s reply = some t) : Doomed t := by
  have hbefore := h.before
  cases hpc : s.pc with
  | createDirAll =>
    simp only [ErrorPaths.nextStep, hpc] at taken
    split at taken
    all_goals cases taken
    all_goals exact ⟨h.attempt, h.cgroup, rfl⟩
  | chmod | writeSource | writeStdin | writeCachedProg =>
    simp only [ErrorPaths.nextStep, hpc, State.onOk] at taken
    split at taken
    all_goals cases taken
    all_goals refine ⟨h.attempt, h.cgroup, ?_⟩
    all_goals (try split) <;> rfl
  | createCgroup =>
    simp only [ErrorPaths.nextStep, hpc, h.cgroup, Bool.true_eq_false, and_false, if_false] at taken
    cases taken
    exact ⟨h.attempt, h.cgroup, rfl⟩
  | destroyScratch ok =>
    rw [hpc] at hbefore
    cases ok with
    | true => cases hbefore
    | false =>
      simp only [ErrorPaths.nextStep, hpc] at taken
      split at taken
      all_goals cases taken
      all_goals exact ⟨h.attempt, h.cgroup, rfl⟩
  | returned ok =>
    simp only [ErrorPaths.nextStep, hpc] at taken
    cases taken
  | _ =>
    rw [hpc] at hbefore
    cases hbefore

/-- A second attempt that meets the cgroup of the first one returns no result, whatever happens. -/
theorem doomed_returns_no_result {job : SandboxJob} {compiles : Bool} {s t : State} (h : Doomed s)
    (later : Reachable (step job compiles) s t) : t.pc ≠ .returned true := by
  have doomed : Doomed t := by
    refine later.invariant Doomed h ?_
    intro s a t h _ taken
    cases a with
    | next reply => exact h.nextStep taken
    | deadline killFails =>
      simp only [step] at taken
      split at taken
      · rename_i hwait
        have hbefore := h.before
        rw [hwait] at hbefore
        cases hbefore
      · cases taken
    | process e | earlierProcess e =>
      obtain ⟨_, _, rfl⟩ := Option.map_eq_some_iff.mp taken
      exact ⟨h.attempt, h.cgroup, h.before⟩
    | retry =>
      simp only [step] at taken
      split at taken
      · rename_i hretry
        rw [h.attempt] at hretry
        exact absurd hretry.2 (by decide)
      · cases taken
  intro hpc
  have hbefore := doomed.before
  rw [hpc] at hbefore
  cases hbefore

end ZeroCode.Sandbox.ErrorPaths
