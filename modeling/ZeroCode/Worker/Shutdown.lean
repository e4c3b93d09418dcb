import ZeroCode.Worker.Wakeups

/-!
# Shutting a worker down

The main task waits for a signal, wakes whoever waits for it at that moment, and joins its
tasks one after the other. Such a wake-up stores nothing. The loop of the worker creates the
future that can receive it when it enters its select, and drops the future with whatever was
delivered to it when another branch wins. So the wake-up is lost while the loop drains, and
when it arrives together with a free slot, a notification or the pause.
-/

namespace ZeroCode.Worker

open ZeroCode.Core ZeroCode.Foundation ZeroCode.Sandbox

/-- The tasks that the main task joins, in this order. -/
inductive JoinHandle
  | runner
  | sweeper
  | reaper
  | retention
  | metrics
  | queueDepth
  deriving DecidableEq, Repr

/-- The joins in front of the main task when it begins with them. -/
def JoinHandle.all : List JoinHandle := [.runner, .sweeper, .reaper, .retention, .metrics, .queueDepth]

/-- Where the main task is: before the signal, at its joins, or behind the report of a clean stop. -/
inductive MainPc
  | waiting
  | joining (rest : List JoinHandle)
  | stopped
  deriving DecidableEq, Repr

/-- The process of a worker. `notified` is the future of the select for the shutdown, and whether it has been
woken; `ended` are the tasks beside the loop that have returned. -/
structure WorkerProcess where
  runner : Runner
  notified : Option Bool
  ended : List JoinHandle
  main : MainPc
  deriving DecidableEq, Repr

/-- A step of the system without a shutdown, of the select, of a task beside the loop, or of the main task. -/
inductive ProcessAction
  | runner (a : RunnerAction)
  | createNotified
  | shutdown
  | ends (handle : JoinHandle)
  | notifyWaiters
  | join
  | report
  deriving DecidableEq, Repr

/-- The loop is at its select. -/
def LoopPc.selecting : LoopPc → Bool
  | .entering _ | .parked _ _ => true
  | _ => false

section Process

variable (cfg : RunnerConfig)

/-- The worker has started. -/
def WorkerProcess.init : WorkerProcess := ⟨Runner.init cfg, none, [], .waiting⟩

/-- A task has returned. -/
def WorkerProcess.returned (s : WorkerProcess) : JoinHandle → Bool
  | .runner => s.runner.pc == .stopped
  | handle => s.ended.contains handle

/-- One step of the process. -/
def WorkerProcess.step (s : WorkerProcess) : ProcessAction → Option WorkerProcess
  | .runner a =>
    -- the branches of the select are polled once all of its futures have been created
    if a ≠ .shutdown ∧ (a = .enter → s.notified ≠ none) then
      (s.runner.step cfg a).map fun runner =>
        { s with runner := runner, notified := if runner.pc.selecting then s.notified else none }
    else none
  | .createNotified =>
    match s.runner.pc with
    | .entering _ => if s.notified = none then some { s with notified := some false } else none
    | _ => none
  | .shutdown =>
    if s.notified = some true then
      (s.runner.step cfg .shutdown).map fun runner => { s with runner := runner, notified := none }
    else none
  | .ends handle =>
    if s.main ≠ .waiting ∧ handle ≠ .runner then some { s with ended := handle :: s.ended } else none
  | .notifyWaiters =>
    if s.main = .waiting then
      some { s with notified := s.notified.map fun _ => true, main := .joining JoinHandle.all }
    else none
  | .join =>
    match s.main with
    | .joining (handle :: rest) => if s.returned handle then some { s with main := .joining rest } else none
    | _ => none
  | .report => if s.main = .joining [] then some { s with main := .stopped } else none

/-- A branch of the select other than the shutdown wins in this step. -/
def Runner.leavesSelect (s : Runner) : RunnerAction → Bool
  | .enter => (s.slotFree.poll ()).1
  | .slotFreed | .jobNotified | .elapsed => true
  | _ => false

/-- The signal comes while the loop holds the future for it, and once it was delivered no other branch wins. -/
def Attends (s : WorkerProcess) : ProcessAction → Prop
  | .notifyWaiters => s.notified ≠ none
  | .runner a => s.notified = some true → s.runner.leavesSelect a = false
  | _ => True

instance (s : WorkerProcess) (a : ProcessAction) : Decidable (Attends s a) :=
  match a with
  | .notifyWaiters => inferInstanceAs (Decidable (s.notified ≠ none))
  | .runner a => inferInstanceAs (Decidable (s.notified = some true → s.runner.leavesSelect a = false))
  | .createNotified | .shutdown | .ends _ | .join | .report => isTrue trivial

/-- Once the signal was sent, the loop is not about to claim, it waits only with the wake-up in front of it, and it
can still end. -/
structure HeedsShutdown (s : WorkerProcess) : Prop where
  claimsNone : s.runner.pc ≠ .acquiring ∧ s.runner.pc ≠ .claiming
  pending : ∀ exit wake, s.runner.pc = .parked exit wake → s.notified = some true
  completes : ∃ t, Reachable (WorkerProcess.step cfg) s t ∧ t.runner.pc = .stopped

/-- What the future of the select tells about the loop and the main task. -/
structure ProcessInv (s : WorkerProcess) : Prop where
  held : s.notified ≠ none → s.runner.pc.selecting = true
  parked : ∀ exit wake, s.runner.pc = .parked exit wake → s.notified ≠ none
  woken : s.notified = some true → s.main ≠ .waiting
  stopped : s.runner.pc = .stopped → s.main ≠ .waiting
  joined : ∀ rest, s.main = .joining rest → .runner ∉ rest → s.runner.pc = .stopped
  reported : s.main = .stopped → s.runner.pc = .stopped

/-- The signal was sent, and the loop goes on without knowing of it. -/
def Deaf (s : WorkerProcess) : Prop := s.main ≠ .waiting ∧ s.runner.pc ≠ .stopped ∧ s.notified ≠ some true

/-- What a step of the process found and what it left. -/
inductive WorkerProcess.Effect (s : WorkerProcess) : ProcessAction → WorkerProcess → Prop
  | runner (a : RunnerAction) (runner : Runner) (hne : a ≠ .shutdown) (hcreated : a = .enter → s.notified ≠ none)
    (hrunner : s.runner.step cfg a = some runner) :
    Effect s (.runner a) { s with runner := runner, notified := if runner.pc.selecting then s.notified else none }
  | createNotified (exit : DrainExit) (hpc : s.runner.pc = .entering exit) (hnone : s.notified = none) :
    Effect s .createNotified { s with notified := some false }
  | shutdown (runner : Runner) (hwoken : s.notified = some true) (hpc : runner.pc = .stopped)
    (hrunner : s.runner.step cfg .shutdown = some runner) :
    Effect s .shutdown { s with runner := runner, notified := none }
  | ends (handle : JoinHandle) (hmain : s.main ≠ .waiting) (hother : handle ≠ .runner) :
    Effect s (.ends handle) { s with ended := handle :: s.ended }
  | notifyWaiters (hmain : s.main = .waiting) :
    Effect s .notifyWaiters { s with notified := s.notified.map fun _ => true, main := .joining JoinHandle.all }
  | join (handle : JoinHandle) (rest : List JoinHandle) (hmain : s.main = .joining (handle :: rest))
    (hreturned : s.returned handle = true) : Effect s .join { s with main := .joining rest }
  | report (hmain : s.main = .joining []) : Effect s .report { s with main := .stopped }

variable {cfg}

/-- Nothing but a shutdown ends the loop, and the loop parks by entering its select. -/
theorem Runner.pc_of_step {s t : Runner} {a : RunnerAction} (hstep : s.step cfg a = some t) (hne : a ≠ .shutdown) :
    (t.pc = .stopped ↔ s.pc = .stopped) ∧
      ∀ exit wake, t.pc = .parked exit wake → a = .enter ∨ ∃ wake, s.pc = .parked exit wake := by
  cases Runner.effect_of_step hstep with
  | shutdown => exact absurd rfl hne
  | job j a job t hjob heffect =>
    rw [heffect.pc]
    exact ⟨Iff.rfl, fun exit wake hpc => Or.inr ⟨wake, hpc⟩⟩
  | store | notify => exact ⟨Iff.rfl, fun exit wake hpc => Or.inr ⟨wake, hpc⟩⟩
  | park exit slotFree hpc hpoll => exact ⟨by simp [hpc], fun _ _ _ => Or.inl rfl⟩
  | connected exit hpc =>
    refine ⟨by simp [hpc], fun exit' wake heq => Or.inr ⟨.connecting, ?_⟩⟩
    cases heq
    exact hpc
  | notConnected exit hpc =>
    refine ⟨by simp [hpc], fun exit' wake heq => Or.inr ⟨.connecting, ?_⟩⟩
    cases heq
    exact hpc
  | listenerError exit hpc hpending =>
    refine ⟨by simp [hpc], fun exit' wake heq => Or.inr ⟨.awaiting, ?_⟩⟩
    cases heq
    exact hpc
  | acquired hpc | busy hpc | claimed _ _ _ _ hpc | claimLost _ _ _ _ hpc | claimEmpty _ hpc | claimFails hpc
  | drainAgain _ _ hpc | slotFreed _ _ _ hpc | jobNotified _ hpc | elapsed _ _ hpc =>
    refine ⟨by simp [hpc, Runner.leaveDrain, Runner.leavePark], fun exit wake hparked => ?_⟩
    cases hparked

/-- A loop at its select stays there exactly if no other branch wins. -/
theorem Runner.selecting_of_step {s t : Runner} {a : RunnerAction} (hstep : s.step cfg a = some t) (hne : a ≠ .shutdown)
    (hselecting : s.pc.selecting = true) : t.pc.selecting = !s.leavesSelect a := by
  cases Runner.effect_of_step hstep with
  | shutdown => exact absurd rfl hne
  | job j a job t hjob heffect =>
    rw [heffect.pc]
    exact hselecting
  | store | notify => exact hselecting
  | drainAgain exit slotFree hpc hpoll => simp [Runner.leavesSelect, hpoll, LoopPc.selecting]
  | park exit slotFree hpc hpoll => simp [Runner.leavesSelect, hpoll, LoopPc.selecting]
  | slotFreed | connected | notConnected | jobNotified | listenerError | elapsed => rfl
  | acquired hpc | busy hpc | claimed _ _ _ _ hpc | claimLost _ _ _ _ hpc | claimEmpty _ hpc | claimFails hpc =>
    rw [hpc] at hselecting
    cases hselecting

/-- A loop at its select can be shut down. -/
theorem Runner.exists_shutdown {s : Runner} (hselecting : s.pc.selecting = true) :
    ∃ t, s.step cfg .shutdown = some t ∧ t.pc = .stopped := by
  cases hpc : s.pc with
  | entering exit => exact ⟨{ s.leavePark with pc := .stopped }, by simp only [Runner.step, hpc], rfl⟩
  | parked exit wake => exact ⟨{ s.leavePark with pc := .stopped }, by simp only [Runner.step, hpc], rfl⟩
  | acquiring | claiming | stopped =>
    rw [hpc] at hselecting
    cases hselecting

/-- Every step has one of the effects. -/
theorem WorkerProcess.effect_of_step {s t : WorkerProcess} {a : ProcessAction} (hstep : s.step cfg a = some t) :
    s.Effect cfg a t := by
  cases a with
  | runner a =>
    obtain ⟨⟨hne, hcreated⟩, heq⟩ := Option.ite_none_right_eq_some.mp hstep
    obtain ⟨runner, hrunner, rfl⟩ := Option.map_eq_some_iff.mp heq
    exact .runner a runner hne hcreated hrunner
  | createNotified =>
    simp only [WorkerProcess.step] at hstep
    split at hstep
    · rename_i exit hpc
      obtain ⟨hnone, heq⟩ := Option.ite_none_right_eq_some.mp hstep
      cases heq
      exact .createNotified exit hpc hnone
    · cases hstep
  | shutdown =>
    obtain ⟨hwoken, heq⟩ := Option.ite_none_right_eq_some.mp hstep
    obtain ⟨runner, hrunner, rfl⟩ := Option.map_eq_some_iff.mp heq
    refine .shutdown runner hwoken ?_ hrunner
    cases Runner.effect_of_step hrunner
    rfl
  | ends handle =>
    obtain ⟨⟨hmain, hother⟩, heq⟩ := Option.ite_none_right_eq_some.mp hstep
    cases heq
    exact .ends handle hmain hother
  | notifyWaiters =>
    obtain ⟨hmain, heq⟩ := Option.ite_none_right_eq_some.mp hstep
    cases heq
    exact .notifyWaiters hmain
  | join =>
    simp only [WorkerProcess.step] at hstep
    split at hstep
    · rename_i handle rest hmain
      obtain ⟨hreturned, heq⟩ := Option.ite_none_right_eq_some.mp hstep
      cases heq
      exact .join handle rest hmain hreturned
    · cases hstep
  | report =>
    obtain ⟨hmain, heq⟩ := Option.ite_none_right_eq_some.mp hstep
    cases heq
    exact .report hmain

/-- Nothing has been sent yet. -/
theorem ProcessInv.init : ProcessInv (WorkerProcess.init cfg) where
  held := fun h => absurd rfl h
  parked := nofun
  woken := nofun
  stopped := nofun
  joined := nofun
  reported := nofun

/-- Every step of the loop keeps the invariant. -/
theorem ProcessInv.of_runner {s : WorkerProcess} (h : ProcessInv s) {a : RunnerAction} {runner : Runner}
    (hne : a ≠ .shutdown) (hcreated : a = .enter → s.notified ≠ none) (hrunner : s.runner.step cfg a = some runner) :
    ProcessInv { s with runner := runner, notified := if runner.pc.selecting then s.notified else none } := by
  obtain ⟨hstopped, hparked⟩ := Runner.pc_of_step hrunner hne
  constructor
  · intro hnotified
    by_contra hselecting
    exact hnotified (if_neg hselecting)
  · intro exit wake hpc
    have hselecting : runner.pc.selecting = true := by
      change runner.pc = .parked exit wake at hpc
      rw [hpc]
      rfl
    simp only [if_pos hselecting]
    rcases hparked exit wake hpc with hentered | ⟨wake, hbefore⟩
    · exact hcreated hentered
    · exact h.parked exit wake hbefore
  · intro hwoken
    by_cases hselecting : runner.pc.selecting = true
    · exact h.woken (by simpa only [if_pos hselecting] using hwoken)
    · simp [hselecting] at hwoken
  · exact fun hpc => h.stopped (hstopped.mp hpc)
  · exact fun rest hmain hnot => hstopped.mpr (h.joined rest hmain hnot)
  · exact fun hmain => hstopped.mpr (h.reported hmain)

/-- Every step of the process keeps the invariant. -/
theorem ProcessInv.of_step {s t : WorkerProcess} {a : ProcessAction} (h : ProcessInv s) (hstep : s.step cfg a = some t) :
    ProcessInv t := by
  cases WorkerProcess.effect_of_step hstep with
  | runner a runner hne hcreated hrunner => exact h.of_runner hne hcreated hrunner
  | createNotified exit hpc hnone =>
    refine ⟨fun _ => ?_, fun _ _ _ => nofun, nofun, h.stopped, h.joined, h.reported⟩
    change s.runner.pc.selecting = true
    rw [hpc]
    rfl
  | shutdown runner hwoken hpc hrunner =>
    refine ⟨fun hnone => absurd rfl hnone, fun exit wake hparked => ?_, nofun, fun _ => h.woken hwoken, fun _ _ _ => hpc,
      fun _ => hpc⟩
    rw [hpc] at hparked
    cases hparked
  | ends handle hmain hother => exact ⟨h.held, h.parked, h.woken, h.stopped, h.joined, h.reported⟩
  | notifyWaiters hmain =>
    refine ⟨fun hsome => h.held fun hnone => hsome ?_, fun exit wake hpc hnone => ?_, fun _ => nofun, fun _ => nofun,
      fun rest heq hnot => ?_, nofun⟩
    · simp [hnone]
    · exact h.parked exit wake hpc (Option.map_eq_none_iff.mp hnone)
    · cases heq
      exact absurd List.mem_cons_self hnot
  | join handle rest hmain hreturned =>
    refine ⟨h.held, h.parked, fun _ => nofun, fun _ => nofun, fun rest' heq hnot => ?_, nofun⟩
    cases heq
    cases handle with
    | runner => exact beq_iff_eq.mp hreturned
    | sweeper | reaper | retention | metrics | queueDepth =>
      exact h.joined _ hmain fun hmem => hnot ((List.mem_cons.mp hmem).resolve_left nofun)
  | report hmain =>
    exact ⟨h.held, h.parked, fun _ => nofun, fun _ => nofun, nofun, fun _ => h.joined [] hmain List.not_mem_nil⟩

/-- A loop that does not know of the signal never will. -/
theorem Deaf.of_step {s t : WorkerProcess} {a : ProcessAction} (h : Deaf s) (hstep : s.step cfg a = some t) : Deaf t := by
  obtain ⟨hsent, hrunning, hunaware⟩ := h
  cases WorkerProcess.effect_of_step hstep with
  | runner a runner hne hcreated hrunner =>
    refine ⟨hsent, fun hpc => hrunning ((Runner.pc_of_step hrunner hne).1.mp hpc), fun hwoken => ?_⟩
    dsimp only at hwoken
    split at hwoken
    · exact hunaware hwoken
    · cases hwoken
  | createNotified exit hpc hnone => exact ⟨hsent, hrunning, nofun⟩
  | shutdown runner hwoken hpc hrunner => exact absurd hwoken hunaware
  | ends handle hmain hother => exact ⟨hsent, hrunning, hunaware⟩
  | notifyWaiters hmain => exact absurd hmain hsent
  | join handle rest hmain hreturned => exact ⟨nofun, hrunning, hunaware⟩
  | report hmain => exact ⟨nofun, hrunning, hunaware⟩

/-- The loop loses the signal in exactly the steps that do not attend to it. -/
theorem deaf_iff_of_step {s t : WorkerProcess} {a : ProcessAction} (h : ProcessInv s) (hstep : s.step cfg a = some t)
    (hsound : ¬ Deaf s) : Deaf t ↔ ¬ Attends s a := by
  cases WorkerProcess.effect_of_step hstep with
  | runner a runner hne hcreated hrunner =>
    have hstopped := (Runner.pc_of_step hrunner hne).1
    constructor
    · rintro ⟨hsent, hrunning, hunaware⟩ hattends
      have hwoken : s.notified = some true := by
        by_contra hnot
        exact hsound ⟨hsent, fun hpc => hrunning (hstopped.mpr hpc), hnot⟩
      have hselecting := Runner.selecting_of_step hrunner hne (h.held (by simp [hwoken]))
      rw [hattends hwoken] at hselecting
      exact hunaware (by simpa [hselecting] using hwoken)
    · intro hmisses
      obtain ⟨hwoken, hleaves⟩ := Classical.not_imp.mp hmisses
      have hheld : s.runner.pc.selecting = true := h.held (by simp [hwoken])
      have hselecting := Runner.selecting_of_step hrunner hne hheld
      rw [Bool.eq_true_of_not_eq_false hleaves] at hselecting
      refine ⟨h.woken hwoken, fun hpc => ?_, by simp [hselecting]⟩
      rw [hstopped.mp hpc] at hheld
      cases hheld
  | createNotified exit hpc hnone =>
    refine iff_of_false (fun hdeaf => hsound ⟨hdeaf.1, hdeaf.2.1, ?_⟩) (not_not_intro trivial)
    simp [hnone]
  | shutdown runner hwoken hpc hrunner => exact iff_of_false (fun hdeaf => hdeaf.2.1 hpc) (not_not_intro trivial)
  | ends handle hmain hother => exact iff_of_false hsound (not_not_intro trivial)
  | notifyWaiters hmain =>
    constructor
    · rintro ⟨_, _, hunaware⟩ hattends
      obtain ⟨woken, hsome⟩ := Option.ne_none_iff_exists'.mp hattends
      exact hunaware (by simp [hsome])
    · intro hmisses
      have hnone : s.notified = none := not_not.mp hmisses
      exact ⟨nofun, fun hpc => h.stopped hpc hmain, by simp [hnone]⟩
  | join handle rest hmain hreturned =>
    exact iff_of_false (fun hdeaf => hsound ⟨by simp [hmain], hdeaf.2⟩) (not_not_intro trivial)
  | report hmain => exact iff_of_false (fun hdeaf => hsound ⟨by simp [hmain], hdeaf.2⟩) (not_not_intro trivial)

/-- A process heeds the signal exactly if its loop has not lost it. -/
theorem heedsShutdown_iff {s : WorkerProcess} (h : ProcessInv s) :
    (s.main ≠ .waiting → HeedsShutdown cfg s) ↔ ¬ Deaf s := by
  constructor
  · intro hheeds hdeaf
    obtain ⟨t, hreached, hpc⟩ := (hheeds hdeaf.1).completes
    exact (hreached.invariant Deaf hdeaf fun _ _ _ hbefore _ hstep => hbefore.of_step hstep).2.1 hpc
  · intro hsound hsent
    by_cases hpc : s.runner.pc = .stopped
    · exact ⟨by simp [hpc], by simp [hpc], s, .refl, hpc⟩
    · have hwoken : s.notified = some true := by
        by_contra hnot
        exact hsound ⟨hsent, hpc, hnot⟩
      have hselecting : s.runner.pc.selecting = true := h.held (by simp [hwoken])
      obtain ⟨runner, hrunner, hstopped⟩ : ∃ t, s.runner.step cfg .shutdown = some t ∧ t.pc = .stopped :=
        Runner.exists_shutdown hselecting
      have hshutdown : s.step cfg .shutdown = some { s with runner := runner, notified := none } := by
        simp only [WorkerProcess.step, if_pos hwoken, hrunner, Option.map_some]
      refine ⟨?_, fun _ _ _ => hwoken, _, .tail .refl trivial hshutdown, hstopped⟩
      constructor <;>
      · intro hother
        rw [hother] at hselecting
        cases hselecting

/-- However the steps of the loop, its jobs and the main task interleave: behind the signal the loop claims nothing,
waits only with the wake-up in front of it and can still end, exactly if the signal came while the loop held the
future for it and no other branch of the select won since. -/
theorem shutdown_heeded_iff {s : WorkerProcess} (actions : List ProcessAction)
    (run : runActions (WorkerProcess.step cfg) (WorkerProcess.init cfg) actions = some s) :
    (s.main ≠ .waiting → HeedsShutdown cfg s) ↔
      Along (WorkerProcess.step cfg) Attends (WorkerProcess.init cfg) actions := by
  have reached : Reachable (WorkerProcess.step cfg) (WorkerProcess.init cfg) s := .of_runActions actions run
  have hinv : ProcessInv s := reached.invariant ProcessInv .init fun _ _ _ h _ hstep => h.of_step hstep
  rw [heedsShutdown_iff hinv]
  refine along_iff_of_fault ProcessInv Deaf (fun _ _ _ h hstep => h.of_step hstep) (fun _ _ _ _ hstep h => h.of_step hstep)
    (fun _ _ _ h hstep hsound => deaf_iff_of_step h hstep hsound) .init ?_ run
  exact fun hdeaf => hdeaf.1 rfl

end Process

/-- The signal finds the loop at its select. -/
def attendedRun : List ProcessAction :=
  [.runner .tryAcquire, .runner (.claimEmpty []), .createNotified, .runner .enter, .runner (.connect true),
    .notifyWaiters]

/-- The process after that run. -/
def attendedProcess : WorkerProcess :=
  lastState (WorkerProcess.step smallWorker) (WorkerProcess.init smallWorker) attendedRun

/-- The loop can end. -/
theorem shutdown_heeded_attendedRun :
    attendedProcess.main = .joining JoinHandle.all ∧ HeedsShutdown smallWorker attendedProcess := by
  have hrun : runActions (WorkerProcess.step smallWorker) (WorkerProcess.init smallWorker) attendedRun =
      some attendedProcess := runActions_eq_lastState (by decide +kernel)
  have hmain : attendedProcess.main = .joining JoinHandle.all := by decide +kernel
  have halong : Along (WorkerProcess.step smallWorker) Attends (WorkerProcess.init smallWorker) attendedRun :=
    along_of_checkedStep (by decide +kernel)
  exact ⟨hmain, (shutdown_heeded_iff attendedRun hrun).mpr halong (by rw [hmain]; nofun)⟩

/-- The signal arrives while the loop waits for the reply to a claim. The loop claims that job and the next one, and
parks. -/
def deafRun : List ProcessAction :=
  [.runner (.store (.fleet (.insert (.blank 0)))), .runner (.store (.fleet (.insert (.blank 1)))), .runner .tryAcquire,
    .notifyWaiters, .runner (.claim [] 0 .acknowledged), .runner .tryAcquire, .runner (.claim [] 1 .acknowledged),
    .runner .tryAcquire, .createNotified, .runner .enter]

/-- The process after that run. -/
def deafProcess : WorkerProcess :=
  lastState (WorkerProcess.step smallWorker) (WorkerProcess.init smallWorker) deafRun

/-- Both jobs were claimed behind the signal, and the loop is parked without a wake-up. -/
theorem shutdown_lost :
    ¬ ∀ (cfg : RunnerConfig) (actions : List ProcessAction) (s : WorkerProcess),
      runActions (WorkerProcess.step cfg) (WorkerProcess.init cfg) actions = some s → s.main ≠ .waiting →
        HeedsShutdown cfg s := by
  intro hclaim
  have hrun : runActions (WorkerProcess.step smallWorker) (WorkerProcess.init smallWorker) deafRun =
      some deafProcess := runActions_eq_lastState (by decide +kernel)
  have hheeds := hclaim smallWorker deafRun deafProcess hrun (by decide +kernel)
  have hpc : deafProcess.runner.pc = .parked .busy .connecting := by decide +kernel
  have hnotified : deafProcess.notified = some false := by decide +kernel
  have hwoken := hheeds.pending _ _ hpc
  rw [hnotified] at hwoken
  cases hwoken

end ZeroCode.Worker
