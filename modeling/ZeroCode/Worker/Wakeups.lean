import ZeroCode.Api.RowInvariant
import ZeroCode.Worker.Admission

/-!
# What wakes the loop

A loop that stopped because no permit was left is woken by the jobs: a task gives its
permit back before it signals, and a signal is not lost. A loop that stopped because no row
was left is woken by the notifications of new rows. It opens its listener only then, so
what is notified in between reaches nobody, and nothing but the pause is left.
-/

namespace ZeroCode.Worker

open ZeroCode.Api ZeroCode.Core ZeroCode.Foundation ZeroCode.Sandbox

/-- The drain stopped because no permit was left, and the loop waits. -/
def LoopPc.outOfPermits : LoopPc → Bool
  | .entering .busy | .parked .busy _ => true
  | _ => false

/-- A signal is stored or delivered, or a task has given its permit back and is about to issue it. -/
def Runner.SignalDue (s : Runner) : Prop := s.slotFree.Signalled ∨ ∃ job ∈ s.jobs, job.phase = .notifying

instance (s : Runner) : Decidable s.SignalDue := inferInstanceAs (Decidable (_ ∨ _))

/-- While the loop waits for permits, none is free or a signal is due. -/
def SlotInv (s : Runner) : Prop := s.pc.outOfPermits = true → s.parallel = 0 ∨ s.SignalDue

variable {cfg : RunnerConfig}

/-- Where a parked loop is with its listener does not matter for its permits. -/
@[simp]
theorem outOfPermits_parked (exit : DrainExit) (wake : WakePhase) :
    (LoopPc.parked exit wake).outOfPermits = (LoopPc.entering exit).outOfPermits := by
  cases exit <;> rfl

/-- A step of a job does not move the loop. -/
theorem Runner.JobEffect.pc {s t : Runner} {j : ℕ} {job : Job} {a : JobAction} (h : s.JobEffect cfg j job a t) :
    t.pc = s.pc := by
  cases h <;> rfl

/-- A step of a job takes no notification. -/
theorem Runner.JobEffect.listener {s t : Runner} {j : ℕ} {job : Job} {a : JobAction}
    (h : s.JobEffect cfg j job a t) : t.listener = s.listener := by
  cases h <;> rfl

/-- A step of a job announces nothing, and leaves the database alone or is a statement of its task. -/
theorem Runner.JobEffect.store_or {s t : Runner} {j : ℕ} {job : Job} {a : JobAction} (h : s.JobEffect cfg j job a t) :
    (t.store = s.store ∧ t.notified = s.notified) ∨
      ∃ statement store, a = .work statement ∧ s.store.step (statement.on job.task) = some store ∧
        t = { s with store := store } := by
  cases h with
  | work statement store hphase hstore => exact Or.inr ⟨statement, store, rfl, hstore, rfl⟩
  | request | resume | startSandbox | barrier | stopSandbox | release | unlock | signal => exact Or.inl ⟨rfl, rfl⟩

/-- Replacing a job that was not about to signal leaves a signal due. -/
theorem Runner.SignalDue.set {s t : Runner} (h : s.SignalDue) {j : ℕ} {job job' : Job} (hjob : s.jobs[j]? = some job)
    (hphase : job.phase ≠ .notifying) (hjobs : t.jobs = s.jobs.set j job') (hslot : t.slotFree = s.slotFree) :
    t.SignalDue := by
  rcases h with hsignalled | hnotifying
  · exact Or.inl (hslot ▸ hsignalled)
  · refine Or.inr ?_
    rw [hjobs]
    exact exists_mem_set hjob (fun hold => absurd hold hphase) hnotifying

/-- No step of a job loses a signal that is due. -/
theorem Runner.SignalDue.of_jobEffect {s t : Runner} (h : s.SignalDue) {j : ℕ} {job : Job} {a : JobAction}
    (hjob : s.jobs[j]? = some job) (heffect : s.JobEffect cfg j job a t) : t.SignalDue := by
  cases heffect with
  | request hphase => exact h.set hjob (by simp [hphase]) rfl rfl
  | resume count memory hphase htake => exact h.set hjob (by simp [hphase]) rfl rfl
  | work statement store hphase hstore => exact h
  | startSandbox cached sandbox hphase hstarted => exact h.set hjob (by simp [hphase]) rfl rfl
  | barrier ok sandbox hphase hsandbox => exact h.set hjob (by simp [hphase]) rfl rfl
  | stopSandbox hphase => exact h.set hjob (by simp [hphase]) rfl rfl
  | release hphase hsandbox => exact h.set hjob (by simp [hphase]) rfl rfl
  | unlock hphase => exact h.set hjob (by simp [hphase]) rfl rfl
  | signal hphase => exact Or.inl (Notify.signalled_notifyOne s.slotFree)

/-- A step of a job that frees a permit announces a signal. -/
theorem signalDue_of_freed {s t : Runner} (h : s.parallel = 0) {j : ℕ} {job : Job} {a : JobAction}
    (hjob : s.jobs[j]? = some job) (heffect : s.JobEffect cfg j job a t) : t.parallel = 0 ∨ t.SignalDue := by
  cases heffect with
  | unlock hphase =>
    have hlt : j < s.jobs.length := (List.getElem?_eq_some_iff.mp hjob).1
    exact Or.inr (Or.inr ⟨_, List.mem_iff_getElem?.mpr ⟨j, List.getElem?_set_self hlt⟩, rfl⟩)
  | request | resume | work | startSandbox | barrier | stopSandbox | release | signal => exact Or.inl h

/-- A signal that is due stays so until the loop takes it and drains again. -/
theorem Runner.SignalDue.of_step {s t : Runner} {a : RunnerAction} (h : s.SignalDue) (hstep : s.step cfg a = some t) :
    t.SignalDue ∨ t.pc = .acquiring ∧ (a = .enter ∨ a = .slotFreed) := by
  cases Runner.effect_of_step hstep with
  | drainAgain => exact Or.inr ⟨rfl, Or.inl rfl⟩
  | slotFreed => exact Or.inr ⟨rfl, Or.inr rfl⟩
  | job j a job t hjob heffect => exact Or.inl (h.of_jobEffect hjob heffect)
  | park exit slotFree hpc hpoll => exact Or.inl (h.imp_left fun hsignalled => hsignalled.of_poll hpoll)
  | claimed locked token store claim hpc hstore =>
    refine Or.inl (h.imp_right fun hnotifying => ?_)
    obtain ⟨job, hjob, hphase⟩ := hnotifying
    exact ⟨job, List.mem_append_left _ hjob, hphase⟩
  | jobNotified | elapsed | shutdown =>
    -- a signal that was delivered to the branch that lost is passed on
    exact Or.inl (h.imp_left fun hsignalled => hsignalled.cancel ())
  | store | notify | acquired | busy | claimLost | claimEmpty | claimFails | connected | notConnected
  | listenerError => exact Or.inl h

/-- Every step keeps the signals. -/
theorem SlotInv.of_step {s t : Runner} {a : RunnerAction} (h : SlotInv s) (hstep : s.step cfg a = some t) :
    SlotInv t := by
  intro hwaits
  have kept (hdue : s.SignalDue) : t.SignalDue := by
    refine (hdue.of_step hstep).resolve_right fun htaken => ?_
    rw [htaken.1] at hwaits
    cases hwaits
  cases Runner.effect_of_step hstep with
  | job j a job t hjob heffect =>
    rw [heffect.pc] at hwaits
    rcases h hwaits with hnone | hdue
    · exact signalDue_of_freed hnone hjob heffect
    · exact Or.inr (kept hdue)
  | busy hpc hnone => exact Or.inl hnone
  | park exit slotFree hpc hpoll => exact (h (by simpa [hpc] using hwaits)).imp_right kept
  | connected exit hpc => exact (h (by simpa [hpc] using hwaits)).imp_right kept
  | notConnected exit hpc => exact (h (by simpa [hpc] using hwaits)).imp_right kept
  | listenerError exit hpc hpending => exact (h (by simpa [hpc] using hwaits)).imp_right kept
  | store | notify => exact h hwaits
  | acquired | claimed | claimLost | claimEmpty | claimFails | drainAgain | slotFreed | jobNotified | elapsed
  | shutdown => cases hwaits

/-- In every reachable state in which the loop waits after a drain that found no permit, all permits are held,
or a signal is stored or delivered, or a task is between giving its permit back and its signal. -/
theorem slot_signal_not_lost {s : Runner} (reached : Reachable (Runner.step cfg) (Runner.init cfg) s)
    (hpc : s.pc = .entering .busy ∨ ∃ wake, s.pc = .parked .busy wake) :
    s.parallel = 0 ∨ s.slotFree.Signalled ∨ ∃ job ∈ s.jobs, job.phase = .notifying := by
  have h : SlotInv s := reached.invariant SlotInv nofun fun _ _ _ hinv _ hstep => hinv.of_step hstep
  refine h ?_
  rcases hpc with hpc | ⟨wake, hpc⟩ <;> rw [hpc] <;> rfl

/-- Two jobs take both permits, and the loop parks; then one of them fails, and its task is about to signal. -/
def busyRun : List RunnerAction :=
  claimedAs 0 1 71 100 ++ claimedAs 1 2 71 100 ++ [.tryAcquire, .enter] ++ begun 0 ++ (failed 0).dropLast

/-- The worker after that run. -/
def busyRunner : Runner := lastState (Runner.step smallWorker) (Runner.init smallWorker) busyRun

/-- The permit is free, and the signal is still to come. -/
theorem slot_signal_not_lost_busyRun :
    busyRunner.parallel = 1 ∧
      (busyRunner.parallel = 0 ∨ busyRunner.slotFree.Signalled ∨ ∃ job ∈ busyRunner.jobs, job.phase = .notifying) := by
  have reached : Reachable (Runner.step smallWorker) (Runner.init smallWorker) busyRunner :=
    .of_runActions busyRun (runActions_eq_lastState (by decide +kernel))
  exact ⟨by decide +kernel, slot_signal_not_lost reached (Or.inr ⟨.connecting, by decide +kernel⟩)⟩

/-- The drain stopped because it found no row or failed, and the loop waits. -/
def LoopPc.outOfRows : LoopPc → Bool
  | .entering exit | .parked exit _ => exit != .busy
  | _ => false

/-- The `LISTEN` of the loop is in effect. -/
def LoopPc.listens : LoopPc → Bool
  | .parked _ .awaiting => true
  | _ => false

/-- The row can be claimed, and its notification was issued. -/
def Runner.Announced (s : Runner) (r : Row) : Prop := r.status = .queued ∧ r.token ∈ s.notified

instance (s : Runner) (r : Row) : Decidable (s.Announced r) := inferInstanceAs (Decidable (_ ∧ _))

/-- A notification waits for the loop at its listener. -/
def Runner.JobPending (s : Runner) : Prop := s.pc.listens = true ∧ s.listener.pending ≠ []

instance (s : Runner) : Decidable s.JobPending := inferInstanceAs (Decidable (_ ∧ _))

/-- Nothing waits where no `LISTEN` is in effect. -/
theorem not_jobPending {s : Runner} (h : s.pc.listens = false) : ¬s.JobPending := by
  intro hpending
  have hlistens := hpending.1
  rw [h] at hlistens
  cases hlistens

/-- The loop waits for rows, and nothing but its pause is going to wake it. -/
structure Runner.Asleep (s : Runner) : Prop where
  outOfRows : s.pc.outOfRows = true
  silent : ¬s.SignalDue
  deaf : ¬s.JobPending

instance (s : Runner) : Decidable s.Asleep :=
  decidable_of_iff (s.pc.outOfRows = true ∧ ¬s.SignalDue ∧ ¬s.JobPending)
    ⟨fun ⟨hrows, hsilent, hdeaf⟩ => ⟨hrows, hsilent, hdeaf⟩, fun h => ⟨h.outOfRows, h.silent, h.deaf⟩⟩

/-- A loop that is asleep and does not listen is notified of no row that is still queued; the sweeper returns
it no announced row; a claim that fails, or finds all queued rows locked, leaves no announced row behind unless
a signal is due; and tokens are fresh. -/
def HeardInTime (s : Runner) : RunnerAction → Prop
  | .store (.fleet (.insert new)) => new.token ∉ s.notified
  | .store (.fleet .sweep) => s.Asleep → ∀ r ∈ s.store.rows, r.stale s.store.now = true → r.token ∉ s.notified
  | .notify token =>
    s.Asleep → s.pc.listens = false → ∀ r ∈ s.store.rows, r.token = token → r.status ≠ .queued
  | .claim _ token .lost => ¬s.SignalDue → ∀ r ∈ s.store.rows, s.Announced r → r.token = token
  | .claim _ _ .failed | .claimEmpty _ | .claimFails => ¬s.SignalDue → ∀ r ∈ s.store.rows, ¬s.Announced r
  | _ => True

instance (s : Runner) : DecidablePred (HeardInTime s)
  | .store (.fleet (.insert new)) => inferInstanceAs (Decidable (new.token ∉ s.notified))
  | .store (.fleet .sweep) =>
    inferInstanceAs (Decidable (s.Asleep → ∀ r ∈ s.store.rows, r.stale s.store.now = true → r.token ∉ s.notified))
  | .notify token =>
    inferInstanceAs (Decidable (s.Asleep → s.pc.listens = false →
      ∀ r ∈ s.store.rows, r.token = token → r.status ≠ .queued))
  | .claim _ token .lost =>
    inferInstanceAs (Decidable (¬s.SignalDue → ∀ r ∈ s.store.rows, s.Announced r → r.token = token))
  | .claim _ _ .failed | .claimEmpty _ | .claimFails =>
    inferInstanceAs (Decidable (¬s.SignalDue → ∀ r ∈ s.store.rows, ¬s.Announced r))
  | .store (.fleet (.claim ..)) | .store (.fleet (.publishProcessing ..)) | .store (.fleet (.execute ..))
  | .store (.fleet (.writeResult ..)) | .store (.fleet (.writeSandboxFailure ..)) | .store (.fleet (.publishFinished ..))
  | .store (.fleet (.crash ..)) | .store (.fleet (.tick ..)) | .store (.scrubPayloads _) | .store (.expireOldRows _)
  | .tryAcquire | .claim _ _ .acknowledged | .enter | .slotFreed | .connect _ | .jobNotified
  | .listenerError | .elapsed | .shutdown | .job .. => isTrue trivial

/-- The workers write what a backend returned. -/
def JudgedRunner : RunnerAction → Prop
  | .store (.fleet a) => Judged a
  | .job _ (.work statement) => Judged (statement.on 0)
  | _ => True

/-- Whether a statement is judged does not depend on the task. -/
theorem JudgedRunner.on {j : ℕ} {statement : Statement} (h : JudgedRunner (.job j (.work statement))) (i : ℕ) :
    Judged (statement.on i) := by
  cases statement with
  | execute outcome => cases outcome <;> exact h
  | publishProcessing | writeResult | writeSandboxFailure | publishFinished => exact h

/-- No announced row waits for a loop that is asleep. -/
structure WakeInv (s : Runner) : Prop where
  fleet : FleetInv s.store
  listening : s.pc.listens = true → s.listener.listening = true
  awake : s.Asleep → ∀ r ∈ s.store.rows, ¬s.Announced r

/-- Every queued row of the later table was queued in the earlier one. -/
def QueuedBefore (s t : Fleet) : Prop :=
  ∀ r ∈ t.rows, r.status = .queued → ∃ old ∈ s.rows, old.token = r.token ∧ old.status = .queued

/-- Rows that are rewritten to something else than queued were queued before if they are. -/
theorem queuedBefore_updateWhere {s t : Fleet} {condition : Row → Bool} {f : Row → Row}
    (hrows : t.rows = updateWhere condition f s.rows) (hf : ∀ r, (f r).status ≠ .queued) : QueuedBefore s t := by
  intro r hr hqueued
  rw [hrows] at hr
  rcases mem_updateWhere hr with ⟨hold, _⟩ | ⟨old, _, _, rfl⟩
  · exact ⟨r, hold, rfl, hqueued⟩
  · exact absurd hqueued (hf old)

/-- Only inserts and the sweeper put rows into the queue. -/
theorem queuedBefore_of_step {s t : Fleet} {a : FleetAction} (h : FleetInv s) (hinsert : ∀ new, a ≠ .insert new)
    (hsweep : a ≠ .sweep) (hstep : s.step a = some t) : QueuedBefore s t := by
  have same : QueuedBefore s s := fun r hr hqueued => ⟨r, hr, rfl, hqueued⟩
  cases Fleet.effect_of_step hstep with
  | insert new hfresh => exact absurd rfl (hinsert new)
  | claim workerId locked next hnext hqueued => exact queuedBefore_updateWhere rfl fun r => by simp [Row.claim]
  | claimLost workerId locked next hnext hqueued => exact queuedBefore_updateWhere rfl fun r => by simp [Row.claim]
  | claimFailed => exact same
  | publishProcessing i ok task htask hphase => exact same
  | execute i result task htask hphase => exact same
  | executeFailed i task htask hphase => exact same
  | writeResult i reply hcommitted task htask result hphase =>
    have hterminal := h.isTerminal_of_writing htask hphase
    refine queuedBefore_updateWhere rfl fun r hqueued => ?_
    rw [show (encodeStatus result.status).1 = .queued from hqueued] at hterminal
    cases hterminal
  | writeResultFailed i task htask result hphase => exact same
  | writeSandboxFailure i elapsed reply hcommitted task htask hphase =>
    exact queuedBefore_updateWhere rfl fun r => by simp
  | writeSandboxFailureFailed i elapsed task htask hphase => exact same
  | publishFinished i ok task htask status hphase => exact same
  | crash i task htask => exact same
  | sweep => exact absurd rfl hsweep
  | tick elapsed hnonneg => exact same

/-- Rows that were queued before were announced before. -/
theorem QueuedBefore.announced {s : Runner} {store : Fleet} (h : QueuedBefore s.store store) (r : Row)
    (hr : r ∈ store.rows) (hannounced : s.Announced r) : ∃ old ∈ s.store.rows, s.Announced old := by
  obtain ⟨old, hold, htoken, hqueued⟩ := h r hr hannounced.1
  exact ⟨old, hold, hqueued, htoken ▸ hannounced.2⟩

/-- A step that changes no row, announces none and does not put the loop to sleep keeps the invariant. -/
theorem WakeInv.of_loop {s t : Runner} (h : WakeInv s) (hstore : t.store = s.store) (hnotified : t.notified = s.notified)
    (hlistening : t.pc.listens = true → t.listener.listening = true) (hasleep : t.Asleep → s.Asleep) :
    WakeInv t where
  fleet := hstore ▸ h.fleet
  listening := hlistening
  awake hsleeps r hr := by
    rw [hstore] at hr
    rw [Runner.Announced, hnotified]
    exact h.awake (hasleep hsleeps) r hr

/-- A step of a loop whose listener has nothing for it keeps the invariant, if the loop goes on waiting. -/
theorem WakeInv.of_deaf {s t : Runner} {a : RunnerAction} (h : WakeInv s) (hstep : s.step cfg a = some t)
    (hstore : t.store = s.store) (hnotified : t.notified = s.notified)
    (hlistening : t.pc.listens = true → t.listener.listening = true) (hwaits : t.pc ≠ .acquiring)
    (hpc : t.pc.outOfRows = s.pc.outOfRows) (hdeaf : ¬s.JobPending) : WakeInv t := by
  refine h.of_loop hstore hnotified hlistening fun hsleeps => ⟨hpc ▸ hsleeps.outOfRows, fun hdue => ?_, hdeaf⟩
  exact hsleeps.silent ((hdue.of_step hstep).resolve_right fun htaken => hwaits htaken.1)

/-- A drain that leaves no announced row behind keeps the invariant. -/
theorem WakeInv.of_drain {t : Runner} (hfleet : FleetInv t.store) (hlistens : t.pc.listens = false)
    (hnone : ¬t.SignalDue → ∀ r ∈ t.store.rows, ¬t.Announced r) : WakeInv t where
  fleet := hfleet
  listening hpc := by
    rw [hlistens] at hpc
    cases hpc
  awake hsleeps := hnone hsleeps.silent

/-- A step behind which the loop does not wait for rows keeps the invariant. -/
theorem WakeInv.of_not_waiting {t : Runner} (hfleet : FleetInv t.store) (hrows : t.pc.outOfRows = false)
    (hlistening : t.pc.listens = true → t.listener.listening = true) : WakeInv t where
  fleet := hfleet
  listening := hlistening
  awake hsleeps := by
    have hwaits := hsleeps.outOfRows
    rw [hrows] at hwaits
    cases hwaits

/-- A step at the database keeps the invariant, if the rows that are announced behind it were so before. -/
theorem WakeInv.of_rows {s : Runner} {store : Fleet} (h : WakeInv s) (hfleet : FleetInv store)
    (hrows : s.Asleep → ∀ r ∈ store.rows, s.Announced r → ∃ old ∈ s.store.rows, s.Announced old) :
    WakeInv { s with store := store } where
  fleet := hfleet
  listening := h.listening
  awake hsleeps r hr hannounced := by
    have hasleep : s.Asleep := ⟨hsleeps.outOfRows, hsleeps.silent, hsleeps.deaf⟩
    obtain ⟨old, hold, hannouncedOld⟩ := hrows hasleep r hr hannounced
    exact h.awake hasleep old hold hannouncedOld

/-- A step of somebody else at the database keeps the invariant. -/
theorem WakeInv.of_store {s : Runner} {store : Fleet} {a : StoreAction} (h : WakeInv s)
    (hjudged : JudgedRunner (.store a)) (hheard : HeardInTime s (.store a))
    (hstep : storeStep s.store a = some store) : WakeInv { s with store := store } := by
  have hfleet : FleetInv store := fleetInv_of_storeStep h.fleet (fun _ ha => by subst ha; exact hjudged) hstep
  refine h.of_rows hfleet fun hsleeps r hr hannounced => ?_
  cases a with
  | scrubPayloads config =>
    cases hstep
    rcases mem_updateWhere hr with ⟨hold, _⟩ | ⟨old, hold, _, rfl⟩
    · exact ⟨r, hold, hannounced⟩
    · exact ⟨old, hold, hannounced⟩
  | expireOldRows config =>
    cases hstep
    exact ⟨r, List.mem_of_mem_filter hr, hannounced⟩
  | fleet a =>
    have hfleetStep : s.store.step a = some store := hstep
    by_cases hsweep : a = .sweep
    · subst hsweep
      cases hfleetStep
      rcases mem_updateWhere hr with ⟨hold, _⟩ | ⟨old, hold, hstale, rfl⟩
      · exact ⟨r, hold, hannounced⟩
      · exact absurd hannounced.2 (hheard hsleeps old hold hstale)
    · by_cases hinsert : ∃ new, a = .insert new
      · obtain ⟨new, rfl⟩ := hinsert
        cases Fleet.effect_of_step hfleetStep with
        | insert new hfresh =>
          rcases List.mem_append.mp hr with hold | hnew
          · exact ⟨r, hold, hannounced⟩
          · have hfreshToken : new.token ∉ s.notified := hheard
            rw [List.mem_singleton.mp hnew] at hannounced
            exact absurd hannounced.2 hfreshToken
      · have hbefore : QueuedBefore s.store store :=
          queuedBefore_of_step h.fleet (fun new ha => hinsert ⟨new, ha⟩) hsweep hfleetStep
        exact hbefore.announced r hr hannounced

/-- A notification keeps the invariant. -/
theorem WakeInv.notify {s : Runner} (h : WakeInv s) (token : Token) (hheard : HeardInTime s (.notify token)) :
    WakeInv { s with notified := token :: s.notified, listener := s.listener.notify token } where
  fleet := h.fleet
  listening hpc := by
    rw [Listener.notify_listening]
    exact h.listening hpc
  awake hsleeps r hr hannounced := by
    cases hlistens : s.pc.listens with
    | true => exact hsleeps.deaf ⟨hlistens, List.ne_nil_of_mem (Listener.mem_notify_self (h.listening hlistens) token)⟩
    | false =>
      have hasleep : s.Asleep := ⟨hsleeps.outOfRows, hsleeps.silent, not_jobPending hlistens⟩
      obtain ⟨hqueued, hmem⟩ := hannounced
      rcases List.mem_cons.mp hmem with htoken | hold
      · exact hheard hasleep hlistens r hr htoken hqueued
      · exact h.awake hasleep r hr ⟨hqueued, hold⟩

/-- A claim whose reply was lost or that failed keeps the invariant. -/
theorem WakeInv.claimLost {s : Runner} (h : WakeInv s) {locked : List Token} {token : Token} {reply : Reply}
    {store : Fleet} (hheard : HeardInTime s (.claim locked token reply)) (hreply : reply ≠ .acknowledged)
    (hstore : s.store.step (.claim cfg.workerId locked token reply) = some store) :
    WakeInv ({ s with store := store }.leaveDrain .failed) := by
  have hjudged : Judged (.claim cfg.workerId locked token reply) := trivial
  refine .of_drain (h.fleet.of_step hjudged hstore) rfl fun hsilent r hr hannounced => ?_
  cases Fleet.effect_of_step hstore with
  | claim => exact hreply rfl
  | claimLost workerId locked next hnext hqueued =>
    rcases mem_updateWhere hr with ⟨hold, hother⟩ | ⟨old, _, _, rfl⟩
    · -- an announced row that is not the claimed one would have been left behind
      have htoken : r.token = next.token := hheard hsilent r hold hannounced
      simp [htoken] at hother
    · exact absurd hannounced.1 (by simp [Row.claim])
  | claimFailed => exact hheard hsilent r hr hannounced

/-- A step of a job keeps the invariant. -/
theorem WakeInv.of_jobEffect {s t : Runner} (h : WakeInv s) {j : ℕ} {job : Job} {a : JobAction}
    (hjudged : JudgedRunner (.job j a)) (hjob : s.jobs[j]? = some job) (heffect : s.JobEffect cfg j job a t) :
    WakeInv t := by
  rcases heffect.store_or with ⟨hstore, hnotified⟩ | ⟨statement, store, rfl, hstore, rfl⟩
  · refine h.of_loop hstore hnotified ?_ fun hsleeps => ?_
    · rw [heffect.pc, heffect.listener]
      exact h.listening
    · have hrows : s.pc.outOfRows = true := heffect.pc ▸ hsleeps.outOfRows
      have hdeaf : ¬s.JobPending := fun hpending =>
        hsleeps.deaf ⟨heffect.pc ▸ hpending.1, heffect.listener ▸ hpending.2⟩
      exact ⟨hrows, fun hdue => hsleeps.silent (hdue.of_jobEffect hjob heffect), hdeaf⟩
  · have hinsert (new : NewSubmission) : statement.on job.task ≠ .insert new := by cases statement <;> simp [Statement.on]
    have hsweep : statement.on job.task ≠ .sweep := by cases statement <;> simp [Statement.on]
    have hbefore : QueuedBefore s.store store := queuedBefore_of_step h.fleet hinsert hsweep hstore
    exact h.of_rows (h.fleet.of_step (hjudged.on job.task) hstore) fun _ => hbefore.announced

/-- Every step that is heard in time keeps the invariant. -/
theorem WakeInv.of_step {s t : Runner} {a : RunnerAction} (h : WakeInv s) (hjudged : JudgedRunner a)
    (hheard : HeardInTime s a) (hstep : s.step cfg a = some t) : WakeInv t := by
  cases Runner.effect_of_step hstep with
  | store a store hstore => exact h.of_store hjudged hheard hstore
  | notify token => exact h.notify token hheard
  | job j a job t hjob heffect => exact h.of_jobEffect hjudged hjob heffect
  | acquired hpc hfree => exact .of_not_waiting h.fleet rfl nofun
  | busy hpc hnone => exact .of_not_waiting h.fleet rfl nofun
  | claimed locked token store claim hpc hstore =>
    have hjudgedFleet : Judged (.claim cfg.workerId locked token .acknowledged) := trivial
    exact .of_not_waiting (h.fleet.of_step hjudgedFleet hstore) rfl nofun
  | claimLost locked token reply store hpc hreply hstore => exact h.claimLost hheard hreply hstore
  | claimEmpty locked hpc hnone => exact .of_drain h.fleet rfl hheard
  | claimFails hpc => exact .of_drain h.fleet rfl hheard
  | drainAgain exit slotFree hpc hpoll => exact .of_not_waiting h.fleet rfl nofun
  | slotFreed exit wake slotFree hpc hpoll => exact .of_not_waiting h.fleet rfl nofun
  | jobNotified exit hpc hpending => exact .of_not_waiting h.fleet rfl nofun
  | elapsed exit wake hpc => exact .of_not_waiting h.fleet rfl nofun
  | shutdown hpc => exact .of_not_waiting h.fleet rfl nofun
  | park exit slotFree hpc hpoll =>
    exact h.of_deaf hstep rfl rfl nofun nofun (by rw [hpc]; rfl) (not_jobPending (by rw [hpc]; rfl))
  | connected exit hpc =>
    exact h.of_deaf hstep rfl rfl (fun _ => rfl) nofun (by rw [hpc]; rfl) (not_jobPending (by rw [hpc]; rfl))
  | notConnected exit hpc =>
    exact h.of_deaf hstep rfl rfl nofun nofun (by rw [hpc]; rfl) (not_jobPending (by rw [hpc]; rfl))
  | listenerError exit hpc hpending =>
    exact h.of_deaf hstep rfl rfl nofun nofun (by rw [hpc]; rfl) fun hjob => hjob.2 hpending

/-- A drain stops for want of permits, or for want of rows. -/
theorem outOfRows_or_outOfPermits (exit : DrainExit) (wake : WakePhase) :
    (LoopPc.parked exit wake).outOfRows = true ∨ (LoopPc.parked exit wake).outOfPermits = true := by
  cases exit <;> simp [LoopPc.outOfRows, LoopPc.outOfPermits]

/-- In every run whose notifications are heard in time: while the loop is parked with a free permit, and a row
that was notified is still queued, a notification waits at its listener, or a signal is stored or delivered, or
a task is about to issue one. -/
theorem job_wake_not_lost {s : Runner}
    (reached : Reaches (Runner.step cfg) (fun s a => JudgedRunner a ∧ HeardInTime s a) (Runner.init cfg) s)
    {exit : DrainExit} {wake : WakePhase} (hpc : s.pc = .parked exit wake) (hfree : 0 < s.parallel) {r : Row}
    (hr : r ∈ s.store.rows) (hannounced : s.Announced r) :
    s.JobPending ∨ s.slotFree.Signalled ∨ ∃ job ∈ s.jobs, job.phase = .notifying := by
  have h : WakeInv s := reached.invariant WakeInv ⟨.init, nofun, fun hsleeps => nomatch hsleeps.outOfRows⟩
    fun _ _ _ hinv hallowed hstep => hinv.of_step hallowed.1 hallowed.2 hstep
  have hslot : SlotInv s := reached.invariant SlotInv nofun fun _ _ _ hinv _ hstep => hinv.of_step hstep
  by_contra hnone
  obtain ⟨hdeaf, hsilent⟩ := not_or.mp hnone
  rcases outOfRows_or_outOfPermits exit wake with hrows | hpermits
  · exact h.awake ⟨hpc ▸ hrows, hsilent, hdeaf⟩ r hr hannounced
  · rcases hslot (hpc ▸ hpermits) with hzero | hdue
    · omega
    · exact hsilent hdue

/-- A row with the given token is inserted. -/
def inserted (token : Token) : RunnerAction :=
  .store (.fleet (.insert (Api.pythonRequest.newSubmission ResourceLimits.default token none [])))

/-- The loop finds no row, listens, and is notified of one. -/
def heardRun : List RunnerAction :=
  [.tryAcquire, .claimEmpty [], .enter, .connect true, inserted 7, .notify 7]

/-- The worker after that run. -/
def heardRunner : Runner :=
  lastState (checkedStep (Runner.step smallWorker) HeardInTime) (Runner.init smallWorker) heardRun

/-- The notification waits at the listener. -/
theorem job_wake_not_lost_heardRun :
    heardRunner.listener.pending = [7] ∧
      (heardRunner.JobPending ∨ heardRunner.slotFree.Signalled ∨ ∃ job ∈ heardRunner.jobs, job.phase = .notifying) := by
  have checked : Reaches (checkedStep (Runner.step smallWorker) HeardInTime) (fun _ a => JudgedRunner a)
      (Runner.init smallWorker) heardRunner :=
    .of_runActions_forall heardRun (by simp [heardRun, inserted, JudgedRunner, Judged])
      (runActions_eq_lastState (by decide +kernel))
  obtain ⟨r, hr, hannounced⟩ : ∃ r ∈ heardRunner.store.rows, heardRunner.Announced r := by decide +kernel
  have hpc : heardRunner.pc = .parked .empty .awaiting := by decide +kernel
  exact ⟨by decide +kernel, job_wake_not_lost checked.of_checkedStep hpc (by decide +kernel) hr hannounced⟩

/-- The loop finds no row, and listens only after it was notified of one. -/
def missedRun : List RunnerAction :=
  [.tryAcquire, .claimEmpty [], .enter, inserted 7, .notify 7, .connect true]

/-- The worker after that run. -/
def missedRunner : Runner := lastState (Runner.step smallWorker) (Runner.init smallWorker) missedRun

/-- The loop is parked with free permits and a row that it was notified of, and nothing is pending. -/
theorem job_wake_lost :
    ¬ ∀ (cfg : RunnerConfig) (s : Runner),
      Reaches (Runner.step cfg) (fun _ a => JudgedRunner a) (Runner.init cfg) s →
        ∀ exit wake, s.pc = .parked exit wake → 0 < s.parallel → ∀ r ∈ s.store.rows, s.Announced r →
          s.JobPending ∨ s.slotFree.Signalled ∨ ∃ job ∈ s.jobs, job.phase = .notifying := by
  intro hclaim
  have reached : Reaches (Runner.step smallWorker) (fun _ a => JudgedRunner a) (Runner.init smallWorker) missedRunner :=
    .of_runActions_forall missedRun (by simp [missedRun, inserted, JudgedRunner, Judged])
      (runActions_eq_lastState (by decide +kernel))
  obtain ⟨r, hr, hannounced⟩ : ∃ r ∈ missedRunner.store.rows, missedRunner.Announced r := by decide +kernel
  have hpending :=
    hclaim smallWorker missedRunner reached .empty .awaiting (by decide +kernel) (by decide +kernel) r hr hannounced
  revert hpending
  decide +kernel

end ZeroCode.Worker
