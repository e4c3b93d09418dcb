import ZeroCode.Worker.Finality
import ZeroCode.Worker.Shutdown

/-!
# What a clean stop leaves behind

The main task joins the loop of the worker and its helpers. The tasks of the jobs are
detached: nothing joins them, and they end with the process. So a clean stop says something
about the rows of the worker only where every task has its last write behind it. Two more
things leave a row behind without a task for it: a claim whose reply was lost, and a failure
that could not be written.
-/

namespace ZeroCode.Worker

open ZeroCode.Api ZeroCode.Core ZeroCode.Foundation ZeroCode.Sandbox

section Own

variable (workerId : String)

/-- The worker learns what it claimed, its tasks write a failure if they cannot write a result, and they do not
crash. -/
def Settles (s : Fleet) : FleetAction → Prop
  | .claim claimer _ _ reply => claimer = workerId → reply ≠ .lost
  | .writeSandboxFailure i _ reply => ∀ task, s.tasks[i]? = some task → task.workerId = workerId → reply ≠ .failed
  | .crash i => ∀ task, s.tasks[i]? = some task → task.workerId ≠ workerId
  | _ => True

/-- A row that the worker is processing has a task which will write it, and the tasks behind their writes have
written. -/
structure OwnInv (s : Fleet) : Prop where
  covered : ∀ r ∈ s.rows, r.status = .processing → r.workerId = some workerId →
    ∃ task ∈ s.tasks, task.workerId = workerId ∧ task.job.token = r.token ∧ task.mayWrite = true
  wrote : ∀ task ∈ s.tasks, task.workerId = workerId → task.mayWrite = true ∨ task.wrote = true

variable {workerId}

/-- A task of the step before, or the one that a claim has started. -/
theorem Fleet.origin_of_step {s t : Fleet} {a : FleetAction} (hstep : s.step a = some t) {i : ℕ} {task : Task}
    (htask : t.tasks[i]? = some task) :
    (∃ old, s.tasks[i]? = some old ∧ old.workerId = task.workerId ∧ (task.mayWrite = true → old.mayWrite = true)) ∨
      (i = s.tasks.length ∧ ∃ locked token, a = .claim task.workerId locked token .acknowledged) := by
  have replaced {j : ℕ} {old new : Task} (hold : s.task j = some old) (hnew : (s.setTask j new).tasks[i]? = some task)
      (hworker : new.workerId = old.workerId) (hmay : new.mayWrite = true → old.mayWrite = true) :
      ∃ old, s.tasks[i]? = some old ∧ old.workerId = task.workerId ∧ (task.mayWrite = true → old.mayWrite = true) := by
    rcases Fleet.getElem_setTask (Fleet.getElem_of_task hold).1 hnew with ⟨rfl, rfl⟩ | ⟨_, hsame⟩
    · exact ⟨old, (Fleet.getElem_of_task hold).1, hworker.symm, hmay⟩
    · exact ⟨task, hsame, rfl, id⟩
  cases Fleet.effect_of_step hstep with
  | insert | claimLost | claimFailed | sweep | tick => exact Or.inl ⟨task, htask, rfl, id⟩
  | claim workerId locked next hnext hqueued =>
    rcases lt_or_ge i s.tasks.length with hlt | hge
    · rw [List.getElem?_append_left hlt] at htask
      exact Or.inl ⟨task, htask, rfl, id⟩
    · rw [List.getElem?_append_right hge] at htask
      obtain ⟨hlt, heq⟩ := List.getElem?_eq_some_iff.mp htask
      rw [List.length_singleton] at hlt
      have hzero : i - s.tasks.length = 0 := by omega
      simp only [hzero, List.getElem_cons_zero] at heq
      subst heq
      exact Or.inr ⟨by omega, locked, next.token, rfl⟩
  | publishProcessing _ _ _ hold hphase | execute _ _ _ hold hphase | executeFailed _ _ hold hphase
  | writeResult _ _ _ _ hold _ hphase | writeResultFailed _ _ hold _ hphase | writeSandboxFailure _ _ _ _ _ hold hphase
  | writeSandboxFailureFailed _ _ _ hold hphase =>
    exact Or.inl (replaced hold htask rfl fun _ => Fleet.mayWrite_of_task hold (by simp [hphase]) (by simp [hphase]))
  | publishFinished j ok old hold status hphase =>
    exact Or.inl (replaced hold htask rfl fun hmay => by simp [Task.mayWrite] at hmay)
  | crash j old hold => exact Or.inl (replaced hold htask rfl fun hmay => by simp [Task.mayWrite] at hmay)

/-- Nothing is claimed. -/
theorem OwnInv.init : OwnInv workerId Fleet.init where
  covered := List.forall_mem_nil _
  wrote := List.forall_mem_nil _

/-- A task that moves on and keeps its write, or has none in front of it any more because it has written. -/
theorem OwnInv.setTask {s : Fleet} (h : OwnInv workerId s) {i : ℕ} {old new : Task} (hold : s.task i = some old)
    (hworker : new.workerId = old.workerId) (hjob : new.job = old.job)
    (hmay : old.workerId = workerId → old.mayWrite = true → new.mayWrite = true)
    (hwrote : old.workerId = workerId → new.mayWrite = true ∨ new.wrote = true) : OwnInv workerId (s.setTask i new) := by
  have hindex := (Fleet.getElem_of_task hold).1
  constructor
  · intro r hr hprocessing hours
    obtain ⟨task, htask, hown, htoken, hwrites⟩ := h.covered r hr hprocessing hours
    refine exists_mem_set hindex ?_ ⟨task, htask, hown, htoken, hwrites⟩
    rintro ⟨hown, htoken, hwrites⟩
    exact ⟨hworker.trans hown, by rw [hjob, htoken], hmay hown hwrites⟩
  · exact forall_mem_set h.wrote (fun hown => hwrote (hworker.symm.trans hown)) i

/-- A task that moves on with its write in front of it. -/
theorem OwnInv.move {s : Fleet} (h : OwnInv workerId s) {i : ℕ} {old new : Task} (hold : s.task i = some old)
    (hworker : new.workerId = old.workerId) (hjob : new.job = old.job) (hmay : new.mayWrite = true) :
    OwnInv workerId (s.setTask i new) :=
  h.setTask hold hworker hjob (fun _ _ => hmay) fun _ => Or.inl hmay

/-- An update leaves rows that the worker is processing only where they were so before. -/
theorem OwnInv.of_rows {s : Fleet} (h : OwnInv workerId s) {rows : List Row}
    (hrows : ∀ r ∈ rows, r.status = .processing → r.workerId = some workerId →
      ∃ old ∈ s.rows, old.token = r.token ∧ old.status = .processing ∧ old.workerId = some workerId) :
    OwnInv workerId { s with rows := rows } := by
  refine ⟨fun r hr hprocessing hours => ?_, h.wrote⟩
  obtain ⟨old, hold, htoken, hbefore, hours⟩ := hrows r hr hprocessing hours
  rw [← htoken]
  exact h.covered old hold hbefore hours

/-- A task that writes its row leaves it to nobody. -/
theorem OwnInv.write {s : Fleet} (h : OwnInv workerId s) {i : ℕ} {old new : Task} (hold : s.task i = some old)
    (hwrote : new.wrote = true) {f : Row → Row} (hterminal : ∀ r, (f r).status.isTerminal = true) :
    OwnInv workerId { s.setTask i new with rows := updateWhere (fun r => r.token == old.job.token) f s.rows } := by
  have hindex := (Fleet.getElem_of_task hold).1
  constructor
  · intro r hr hprocessing hours
    rcases mem_updateWhere hr with ⟨hkept, hother⟩ | ⟨before, _, _, rfl⟩
    · obtain ⟨task, htask, hown, hsame, hwrites⟩ := h.covered r hkept hprocessing hours
      obtain ⟨j, hj⟩ := List.mem_iff_getElem?.mp htask
      have hne : i ≠ j := by
        rintro rfl
        rw [hindex] at hj
        cases hj
        simp [hsame] at hother
      exact ⟨task, List.mem_of_getElem? ((List.getElem?_set_ne hne).trans hj), hown, hsame, hwrites⟩
    · have hbehind := hterminal before
      rw [hprocessing] at hbehind
      cases hbehind
  · exact forall_mem_set h.wrote (fun _ => Or.inr hwrote) i

/-- A claim of the worker comes with a task. -/
theorem OwnInv.claim {s : Fleet} (h : OwnInv workerId s) {new : Task} (hmay : new.mayWrite = true) {claimer : String}
    (hworker : new.workerId = claimer) :
    OwnInv workerId
      { s with
        rows := updateWhere (fun r => r.token == new.job.token) (Row.claim s.now claimer) s.rows
        tasks := s.tasks ++ [new] } := by
  constructor
  · intro r hr hprocessing hours
    rcases mem_updateWhere hr with ⟨hkept, _⟩ | ⟨before, _, hselected, rfl⟩
    · obtain ⟨task, htask, hrest⟩ := h.covered r hkept hprocessing hours
      exact ⟨task, List.mem_append_left _ htask, hrest⟩
    · refine ⟨new, List.mem_append_right _ (List.mem_singleton_self _), ?_, (beq_iff_eq.mp hselected).symm, hmay⟩
      exact hworker.trans (Option.some.inj hours)
  · exact forall_mem_concat h.wrote fun _ => Or.inl hmay

/-- Every step that settles what the worker has claimed keeps the invariant. -/
theorem OwnInv.of_step {s t : Fleet} {a : FleetAction} (h : OwnInv workerId s) (hfleet : FleetInv s)
    (hsettles : Settles workerId s a) (hstep : s.step a = some t) : OwnInv workerId t := by
  cases Fleet.effect_of_step hstep with
  | insert new hfresh =>
    refine h.of_rows fun r hr hprocessing hours => ?_
    rcases List.mem_append.mp hr with hold | hnew
    · exact ⟨r, hold, rfl, hprocessing, hours⟩
    · rw [List.mem_singleton.mp hnew] at hprocessing
      cases hprocessing
  | claim claimer locked next hnext hqueued =>
    exact @OwnInv.claim _ _ h ⟨claimer, next.claimedJob, .claimed, false, false⟩ rfl claimer rfl
  | claimLost claimer locked next hnext hqueued =>
    refine h.of_rows fun r hr hprocessing hours => ?_
    rcases mem_updateWhere hr with ⟨hkept, _⟩ | ⟨before, _, _, rfl⟩
    · exact ⟨r, hkept, rfl, hprocessing, hours⟩
    · exact absurd rfl (hsettles (Option.some.inj hours))
  | claimFailed => exact h
  | publishProcessing i ok task htask hphase =>
    exact h.move htask rfl rfl (by simp [Task.mayWrite, (Fleet.getElem_of_task htask).2])
  | execute i result task htask hphase =>
    exact h.move htask rfl rfl (by simp [Task.mayWrite, (Fleet.getElem_of_task htask).2])
  | executeFailed i task htask hphase =>
    exact h.move htask rfl rfl (by simp [Task.mayWrite, (Fleet.getElem_of_task htask).2])
  | writeResult i reply hcommitted task htask result hphase =>
    exact h.write htask rfl fun _ => hfleet.isTerminal_of_writing htask hphase
  | writeResultFailed i task htask result hphase =>
    exact h.move htask rfl rfl (by simp [Task.mayWrite, (Fleet.getElem_of_task htask).2])
  | writeSandboxFailure i elapsed reply hcommitted task htask hphase =>
    exact h.write htask rfl fun _ => rfl
  | writeSandboxFailureFailed i elapsed task htask hphase =>
    -- a failure that is not written is none of this worker
    have hother (hown : task.workerId = workerId) : False :=
      hsettles task (Fleet.getElem_of_task htask).1 hown rfl
    exact h.setTask htask rfl rfl (fun hown => (hother hown).elim) fun hown => (hother hown).elim
  | publishFinished i ok task htask status hphase =>
    refine h.setTask htask rfl rfl (fun _ hmay => ?_) fun hown => ?_
    · simp [Task.mayWrite, hphase] at hmay
    · refine (h.wrote task (List.mem_of_getElem? (Fleet.getElem_of_task htask).1) hown).imp_left fun hmay => ?_
      simp [Task.mayWrite, hphase] at hmay
  | crash i task htask =>
    have hother : task.workerId ≠ workerId := hsettles task (Fleet.getElem_of_task htask).1
    exact h.setTask htask rfl rfl (fun hown => absurd hown hother) fun hown => absurd hown hother
  | sweep =>
    refine h.of_rows fun r hr hprocessing hours => ?_
    rcases mem_updateWhere hr with ⟨hkept, _⟩ | ⟨before, _, _, rfl⟩
    · exact ⟨r, hkept, rfl, hprocessing, hours⟩
    · cases hprocessing
  | tick elapsed hnonneg => exact ⟨h.covered, h.wrote⟩

end Own

section Drain

variable (cfg : RunnerConfig)

/-- No reply to a claim of the worker is lost, and the failures of its jobs are written. -/
def Settled : RunnerAction → Prop
  | .claim _ _ reply => reply ≠ .lost
  | .job _ (.work (.writeSandboxFailure _ reply)) => reply ≠ .failed
  | _ => True

instance (a : RunnerAction) : Decidable (Settled a) := by
  unfold Settled
  split <;> infer_instance

/-- Every task of the worker belongs to one of its jobs, and its rows are accounted for. -/
structure JobsInv (s : Runner) : Prop where
  fleet : FleetInv s.store
  own : OwnInv cfg.workerId s.store
  spawned : ∀ i task, s.store.tasks[i]? = some task → task.workerId = cfg.workerId → ∃ job ∈ s.jobs, job.task = i

/-- No task of the worker has a write in front of it. -/
def Runner.Idle (s : Runner) : Prop :=
  ∀ task ∈ s.store.tasks, task.workerId = cfg.workerId → task.mayWrite = false

instance (s : Runner) : Decidable (s.Idle cfg) :=
  inferInstanceAs (Decidable (∀ task ∈ s.store.tasks, task.workerId = cfg.workerId → task.mayWrite = false))

/-- The results that are written are those of a backend. -/
def JudgedProcess : ProcessAction → Prop
  | .runner a => JudgedRunner a
  | _ => True

/-- The statements of the worker settle what it claims, and it reports a clean stop with no write in front of any of
its tasks. -/
def Finishes (s : WorkerProcess) : ProcessAction → Prop
  | .runner a => Settled a
  | .report => s.runner.Idle cfg
  | _ => True

instance (s : WorkerProcess) (a : ProcessAction) : Decidable (Finishes cfg s a) :=
  match a with
  | .runner a => inferInstanceAs (Decidable (Settled a))
  | .report => inferInstanceAs (Decidable (s.runner.Idle cfg))
  | .createNotified | .shutdown | .ends _ | .notifyWaiters | .join => isTrue trivial

/-- The rows of the worker have left it, and each of its jobs has written a result or a failure. -/
structure LeavesNothing (s : WorkerProcess) : Prop where
  rows : ∀ r ∈ s.runner.store.rows, r.status = .processing → r.workerId ≠ some cfg.workerId
  wrote : ∀ task ∈ s.runner.store.tasks, task.workerId = cfg.workerId → task.wrote = true

variable {cfg}

/-- A step of somebody else settles what the worker has claimed, and claims nothing for it. -/
theorem settles_of_foreign {s : Runner} {a : FleetAction}
    (hspawned : ∀ i task, s.store.tasks[i]? = some task → task.workerId = cfg.workerId → ∃ job ∈ s.jobs, job.task = i)
    (hforeign : s.foreign cfg (.fleet a) = true) :
    Settles cfg.workerId s.store a ∧ ∀ locked token reply, a ≠ .claim cfg.workerId locked token reply := by
  -- a task that another step may touch has no job here
  have other {i : ℕ} (hnone : (s.jobs.all fun job => job.task != i) = true) (task : Task)
      (htask : s.store.tasks[i]? = some task) : task.workerId ≠ cfg.workerId := by
    intro hown
    obtain ⟨job, hjob, heq⟩ := hspawned i task htask hown
    have hne := List.all_eq_true.mp hnone job hjob
    exact absurd heq (bne_iff_ne.mp hne)
  cases a with
  | claim claimer locked token reply =>
    have hne : claimer ≠ cfg.workerId := bne_iff_ne.mp hforeign
    refine ⟨fun heq => absurd heq hne, fun _ _ _ heq => ?_⟩
    cases heq
    exact hne rfl
  | writeSandboxFailure i elapsed reply =>
    exact ⟨fun task htask hown => absurd hown (other hforeign task htask), fun _ _ _ => nofun⟩
  | crash i => exact ⟨fun task htask => other hforeign task htask, fun _ _ _ => nofun⟩
  | insert | publishProcessing | execute | writeResult | publishFinished | sweep | tick =>
    exact ⟨trivial, fun _ _ _ => nofun⟩

/-- A step of a job keeps the task that the job has. -/
theorem Runner.JobEffect.jobs_kept {s t : Runner} {j : ℕ} {job : Job} {a : JobAction} (h : s.JobEffect cfg j job a t)
    (hjob : s.jobs[j]? = some job) {i : ℕ} (hspawned : ∃ job ∈ s.jobs, job.task = i) : ∃ job ∈ t.jobs, job.task = i := by
  cases h with
  | work statement store hphase hstore => exact hspawned
  | request | resume | startSandbox | barrier | stopSandbox | release | unlock | signal =>
    exact exists_mem_set hjob id hspawned

/-- A step keeps the jobs with their tasks. -/
theorem Runner.jobs_kept {s t : Runner} {a : RunnerAction} (hstep : s.step cfg a = some t) {i : ℕ}
    (hspawned : ∃ job ∈ s.jobs, job.task = i) : ∃ job ∈ t.jobs, job.task = i := by
  cases Runner.effect_of_step hstep with
  | job j a job t hjob heffect => exact heffect.jobs_kept hjob hspawned
  | claimed locked token store claim hpc hstore =>
    obtain ⟨job, hjob, htask⟩ := hspawned
    exact ⟨job, List.mem_append_left _ hjob, htask⟩
  | store | notify | acquired | busy | claimLost | claimEmpty | claimFails | drainAgain | park | slotFreed | connected
  | notConnected | jobNotified | listenerError | elapsed | shutdown => exact hspawned

/-- A task of the worker was one of its tasks before, or the loop has just claimed its row. -/
theorem JobsInv.origin_of_step {s t : Runner} {a : RunnerAction} (h : JobsInv cfg s) (hstep : s.step cfg a = some t)
    {i : ℕ} {task : Task} (htask : t.store.tasks[i]? = some task) (hown : task.workerId = cfg.workerId) :
    (∃ old, s.store.tasks[i]? = some old ∧ old.workerId = cfg.workerId ∧
        (task.mayWrite = true → old.mayWrite = true)) ∨
      (s.pc = .claiming ∧ ∃ job ∈ t.jobs, job.task = i) := by
  have same (hsame : s.store.tasks[i]? = some task) :
      ∃ old, s.store.tasks[i]? = some old ∧ old.workerId = cfg.workerId ∧ (task.mayWrite = true → old.mayWrite = true) :=
    ⟨task, hsame, hown, id⟩
  -- a statement which is no claim in the name of the worker
  have statement {b : FleetAction} {store : Fleet} (hstore : s.store.step b = some store)
      (hclaim : ∀ locked token reply, b ≠ .claim cfg.workerId locked token reply)
      (hbehind : store.tasks[i]? = some task) :
      ∃ old, s.store.tasks[i]? = some old ∧ old.workerId = cfg.workerId ∧
        (task.mayWrite = true → old.mayWrite = true) := by
    rcases Fleet.origin_of_step hstore hbehind with ⟨old, hold, hworker, hmay⟩ | ⟨_, locked, token, heq⟩
    · exact ⟨old, hold, hworker.trans hown, hmay⟩
    · rw [hown] at heq
      exact absurd heq (hclaim locked token .acknowledged)
  cases Runner.effect_of_step hstep with
  | store a store hstore =>
    obtain ⟨hforeign, _⟩ := Option.ite_none_right_eq_some.mp hstep
    cases a with
    | fleet a => exact Or.inl (statement hstore (settles_of_foreign h.spawned hforeign).2 htask)
    | scrubPayloads config =>
      cases hstore
      exact Or.inl (same htask)
    | expireOldRows config =>
      cases hstore
      exact Or.inl (same htask)
  | claimed locked token store claim hpc hstore =>
    rcases Fleet.origin_of_step hstore htask with ⟨old, hold, hworker, hmay⟩ | ⟨hi, _⟩
    · exact Or.inl ⟨old, hold, hworker.trans hown, hmay⟩
    · exact Or.inr ⟨hpc, _, List.mem_append_right _ (List.mem_singleton_self _), hi.symm⟩
  | claimLost locked token reply store hpc hreply hstore =>
    rcases Fleet.origin_of_step hstore htask with ⟨old, hold, hworker, hmay⟩ | ⟨_, _, _, heq⟩
    · exact Or.inl ⟨old, hold, hworker.trans hown, hmay⟩
    · exact absurd (FleetAction.claim.inj heq).2.2.2 hreply
  | job j a job t hjob heffect =>
    rcases heffect.store_or with ⟨hstore, _⟩ | ⟨statement', store, rfl, hstore, rfl⟩
    · rw [hstore] at htask
      exact Or.inl (same htask)
    · exact Or.inl (statement hstore (fun _ _ _ heq => by cases statement' <;> cases heq) htask)
  | notify | acquired | busy | claimEmpty | claimFails | drainAgain | park | slotFreed | connected | notConnected
  | jobNotified | listenerError | elapsed | shutdown => exact Or.inl (same htask)

/-- No job has started. -/
theorem JobsInv.init : JobsInv cfg (Runner.init cfg) where
  fleet := FleetInv.init
  own := .init
  spawned _ _ htask := by cases htask

/-- What is known of the store behind a step is all there is to know. -/
theorem JobsInv.of_store {s t : Runner} (h : JobsInv cfg s) {a : RunnerAction} (hstep : s.step cfg a = some t)
    (hfleet : FleetInv t.store) (hown : OwnInv cfg.workerId t.store) : JobsInv cfg t where
  fleet := hfleet
  own := hown
  spawned i task htask hworker := by
    rcases h.origin_of_step hstep htask hworker with ⟨old, hold, hbefore, _⟩ | ⟨_, hjob⟩
    · exact Runner.jobs_kept hstep (h.spawned i old hold hbefore)
    · exact hjob

/-- Every step that settles what the worker has claimed keeps the invariant. -/
theorem JobsInv.of_step {s t : Runner} {a : RunnerAction} (h : JobsInv cfg s) (hjudged : JudgedRunner a)
    (hsettled : Settled a) (hstep : s.step cfg a = some t) : JobsInv cfg t := by
  cases Runner.effect_of_step hstep with
  | store a store hstore =>
    obtain ⟨hforeign, _⟩ := Option.ite_none_right_eq_some.mp hstep
    refine h.of_store hstep (fleetInv_of_storeStep h.fleet ?_ hstore) ?_
    · rintro b rfl
      exact hjudged
    · cases a with
      | fleet a => exact h.own.of_step h.fleet (settles_of_foreign h.spawned hforeign).1 hstore
      | scrubPayloads config =>
        cases hstore
        refine h.own.of_rows fun r hr hprocessing hours => ?_
        rcases mem_updateWhere hr with ⟨hkept, _⟩ | ⟨before, hbefore, _, rfl⟩
        · exact ⟨r, hkept, rfl, hprocessing, hours⟩
        · exact ⟨before, hbefore, rfl, hprocessing, hours⟩
      | expireOldRows config =>
        cases hstore
        exact h.own.of_rows fun r hr hprocessing hours => ⟨r, List.mem_of_mem_filter hr, rfl, hprocessing, hours⟩
  | claimed locked token store claim hpc hstore =>
    have hclaim : Judged (.claim cfg.workerId locked token .acknowledged) := trivial
    have hlearned : Settles cfg.workerId s.store (.claim cfg.workerId locked token .acknowledged) := fun _ => nofun
    exact h.of_store hstep (h.fleet.of_step hclaim hstore) (h.own.of_step h.fleet hlearned hstore)
  | claimLost locked token reply store hpc hreply hstore =>
    have hclaim : Judged (.claim cfg.workerId locked token reply) := trivial
    have hlearned : Settles cfg.workerId s.store (.claim cfg.workerId locked token reply) := fun _ => hsettled
    exact h.of_store hstep (h.fleet.of_step hclaim hstore) (h.own.of_step h.fleet hlearned hstore)
  | job j a job t hjob heffect =>
    rcases heffect.store_or with ⟨hstore, _⟩ | ⟨statement, store, rfl, hstore, rfl⟩
    · exact h.of_store hstep (hstore ▸ h.fleet) (hstore ▸ h.own)
    · refine h.of_store hstep (h.fleet.of_step (hjudged.on job.task) hstore) (h.own.of_step h.fleet ?_ hstore)
      cases statement with
      | writeSandboxFailure elapsed reply => exact fun _ _ _ => hsettled
      | publishProcessing | execute | writeResult | publishFinished => exact trivial
  | notify | acquired | busy | claimEmpty | claimFails | drainAgain | park | slotFreed | connected | notConnected
  | jobNotified | listenerError | elapsed | shutdown => exact h.of_store hstep h.fleet h.own

/-- A loop that has ended takes up no new write. -/
theorem Runner.Idle.of_step {s t : Runner} {a : RunnerAction} (h : s.Idle cfg) (hinv : JobsInv cfg s)
    (hpc : s.pc ≠ .claiming) (hstep : s.step cfg a = some t) : t.Idle cfg := by
  intro task htask hown
  obtain ⟨i, hi⟩ := List.mem_iff_getElem?.mp htask
  rcases hinv.origin_of_step hstep hi hown with ⟨old, hold, hworker, hmay⟩ | ⟨hclaiming, _⟩
  · have hidle := h old (List.mem_of_getElem? hold) hworker
    by_contra hnot
    rw [hmay (Bool.eq_true_of_not_eq_false hnot)] at hidle
    cases hidle
  · exact absurd hclaiming hpc

variable (cfg)

/-- What the process keeps on its way to a clean stop, and behind it. -/
structure DrainInv (s : WorkerProcess) : Prop where
  process : ProcessInv s
  jobs : JobsInv cfg s.runner
  idle : s.main = .stopped → s.runner.Idle cfg

variable {cfg}

/-- The worker has started. -/
theorem DrainInv.init : DrainInv cfg (WorkerProcess.init cfg) where
  process := .init
  jobs := .init
  idle hmain := by cases hmain

/-- Every step of such a run keeps the invariant. -/
theorem DrainInv.of_step {s t : WorkerProcess} {a : ProcessAction} (h : DrainInv cfg s) (hjudged : JudgedProcess a)
    (hfinishes : Finishes cfg s a) (hstep : s.step cfg a = some t) : DrainInv cfg t := by
  have hprocess : ProcessInv t := h.process.of_step hstep
  cases WorkerProcess.effect_of_step hstep with
  | runner a runner hne hcreated hrunner =>
    refine ⟨hprocess, h.jobs.of_step hjudged hfinishes hrunner, fun hmain => ?_⟩
    exact (h.idle hmain).of_step h.jobs (by simp [h.process.reported hmain]) hrunner
  | shutdown runner hwoken hpc hrunner =>
    have hjudgedShutdown : JudgedRunner .shutdown := trivial
    have hsettled : Settled .shutdown := trivial
    refine ⟨hprocess, h.jobs.of_step hjudgedShutdown hsettled hrunner, fun hmain => ?_⟩
    exact (h.idle hmain).of_step h.jobs (by simp [h.process.reported hmain]) hrunner
  | createNotified | ends => exact ⟨hprocess, h.jobs, h.idle⟩
  | notifyWaiters | join => exact ⟨hprocess, h.jobs, nofun⟩
  | report hmain => exact ⟨hprocess, h.jobs, fun _ => hfinishes⟩

end Drain

end ZeroCode.Worker
