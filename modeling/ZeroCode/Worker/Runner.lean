import ZeroCode.Foundation.Listener
import ZeroCode.Foundation.Notify
import ZeroCode.Foundation.Semaphore
import ZeroCode.Sandbox.TokenResources
import ZeroCode.Worker.ClaimAge
import ZeroCode.Worker.Retention

/-!
# The loop of a worker

A worker drains the queue: it takes a permit for a job, claims a row and starts a task for
it, until no permit or no row is left. Then it waits for one of three things: a shutdown, a
job that gave its permits back, or a wake-up of its own, for which it opens a listener anew
each time and falls back to a pause of two seconds. A task reserves memory before it
executes its job, and gives the memory, the permit and a signal back in this order.
-/

namespace ZeroCode.Worker

open ZeroCode.Core ZeroCode.Foundation ZeroCode.Sandbox

/-- The largest number of permits of a semaphore. -/
def maxPermits : ℕ := (2 ^ 64 - 1) / 8

/-- Bring a number into a range. -/
def clamp (n lo hi : ℕ) : ℕ := max lo (min n hi)

/-- What a worker is started with. -/
structure RunnerConfig where
  workerId : String
  languages : List LanguageSpec
  maxParallel : ℕ
  memoryBudgetMb : ℕ
  deriving DecidableEq, Repr

/-- How many jobs may run at a time. -/
def RunnerConfig.parallelism (cfg : RunnerConfig) : ℕ := max cfg.maxParallel 1

/-- How many megabytes the jobs may reserve together. -/
def RunnerConfig.memBudget (cfg : RunnerConfig) : ℕ := clamp cfg.memoryBudgetMb 1 maxPermits

/-- How many megabytes a job reserves. -/
def RunnerConfig.want (cfg : RunnerConfig) (claim : ClaimedJob) : ℕ := clamp claim.limits.memoryMb 1 cfg.memBudget

/-- Where the task of a job is: not begun, waiting for memory, busy with the job, or giving things back. -/
inductive JobPhase
  | spawned
  | waiting
  | executing
  | unlocking
  | notifying
  | done
  deriving DecidableEq, Repr

/-- The sandbox of a job: the memory limit in force, in bytes, and whether the barrier is still to come. -/
structure RunningSandbox where
  memoryMax : ℕ
  compiling : Bool
  deriving DecidableEq, Repr

/-- A claimed job, with the number of its task in the fleet. -/
structure Job where
  claim : ClaimedJob
  task : ℕ
  phase : JobPhase
  attempts : ℕ
  sandbox : Option RunningSandbox
  deriving DecidableEq, Repr

/-- Why a drain stopped: no permit was left, no row was left, or the claim failed. -/
inductive DrainExit
  | busy
  | empty
  | failed
  deriving DecidableEq, Repr

/-- How far the wake-up of the worker is: before its `LISTEN`, behind it, or pausing without one. -/
inductive WakePhase
  | connecting
  | awaiting
  | fallback
  deriving DecidableEq, Repr

/-- Where the loop is. -/
inductive LoopPc
  | acquiring
  | claiming
  | entering (exit : DrainExit)
  | parked (exit : DrainExit) (wake : WakePhase)
  | stopped
  deriving DecidableEq, Repr

/-- The database with everybody at it, and one worker. `notified` keeps the tokens whose notification was
issued and is read by no step. -/
structure Runner where
  store : Fleet
  notified : List Token
  listener : Listener Token
  parallel : ℕ
  memory : Semaphore ℕ
  slotFree : Notify Unit
  pc : LoopPc
  jobs : List Job
  deriving DecidableEq, Repr

/-- A statement of the task of a job, or its publication. -/
inductive Statement
  | publishProcessing (ok : Bool)
  | execute (outcome : Option SandboxResult)
  | writeResult (reply : Reply)
  | writeSandboxFailure (elapsed : ℚ) (reply : Reply)
  | publishFinished (ok : Bool)
  deriving DecidableEq, Repr

/-- The statement as a step of the fleet. -/
def Statement.on (i : ℕ) : Statement → FleetAction
  | .publishProcessing ok => .publishProcessing i ok
  | .execute outcome => .execute i outcome
  | .writeResult reply => .writeResult i reply
  | .writeSandboxFailure elapsed reply => .writeSandboxFailure i elapsed reply
  | .publishFinished ok => .publishFinished i ok

/-- What the task of a job does next. -/
inductive JobAction
  | request
  | resume
  | work (statement : Statement)
  | startSandbox (cached : Bool)
  | barrier (ok : Bool)
  | stopSandbox
  | release
  | unlock
  | signal
  deriving DecidableEq, Repr

/-- A step of somebody else at the database, of the API, of the loop, or of a job. -/
inductive RunnerAction
  | store (a : StoreAction)
  | notify (token : Token)
  | tryAcquire
  | claim (locked : List Token) (token : Token) (reply : Reply)
  | claimEmpty (locked : List Token)
  | claimFails
  | enter
  | slotFreed
  | connect (ok : Bool)
  | jobNotified
  | listenerError
  | elapsed
  | shutdown
  | job (j : ℕ) (a : JobAction)
  deriving DecidableEq, Repr

section Steps

variable (cfg : RunnerConfig)

/-- Nothing has been claimed, and the loop begins to drain. -/
def Runner.init : Runner where
  store := Fleet.init
  notified := []
  listener := .idle
  parallel := cfg.parallelism
  memory := .new cfg.memBudget
  slotFree := .idle
  pc := .acquiring
  jobs := []

/-- The action is none of this worker: neither a claim in its name nor a step of one of its tasks. -/
def Runner.foreign (s : Runner) : StoreAction → Bool
  | .fleet (.claim workerId _ _ _) => workerId != cfg.workerId
  | .fleet (.publishProcessing i _) | .fleet (.execute i _) | .fleet (.writeResult i _)
  | .fleet (.writeSandboxFailure i _ _) | .fleet (.publishFinished i _) | .fleet (.crash i) =>
    s.jobs.all fun job => job.task != i
  | .fleet (.insert _) | .fleet .sweep | .fleet (.tick _) | .scrubPayloads _ | .expireOldRows _ => true

/-- The drain returns and drops its permit. -/
def Runner.leaveDrain (s : Runner) (exit : DrainExit) : Runner :=
  { s with parallel := s.parallel + 1, pc := .entering exit }

/-- The loop goes back to draining; what it waited for besides is dropped. -/
def Runner.leavePark (s : Runner) : Runner :=
  { s with slotFree := s.slotFree.cancel (), listener := .idle, pc := .acquiring }

/-- Replace a job. -/
def Runner.setJob (s : Runner) (j : ℕ) (job : Job) : Runner := { s with jobs := s.jobs.set j job }

/-- What the sandbox is asked to run. -/
def ClaimedJob.sandboxJob (claim : ClaimedJob) (spec : LanguageSpec) (cachedBinary : Option Bytes) : SandboxJob where
  token := claim.token
  language := spec
  sourceCode := claim.sourceCode
  stdin := claim.stdin
  limits := claim.limits
  cachedBinary := cachedBinary

/-- Megabytes as bytes. -/
def megabytes (mb : ℕ) : ℕ := mb * 1024 * 1024

/-- The sandbox of a claim when it starts. -/
def RunnerConfig.startedSandbox (claim : ClaimedJob) (cached : Bool) : Option RunningSandbox :=
  match cfg.languages.find? fun spec => spec.id == claim.languageId with
  | none => none
  | some spec =>
    if cached && spec.compileCmd.isNone then none
    else
      let job := claim.sandboxJob spec (if cached then some [] else none)
      some ⟨megabytes (TokenResources.cgroupLimits job cached).memoryMb, spec.willCompile cached⟩

/-- The phase of the task of a job. -/
def Runner.taskPhase (s : Runner) (job : Job) : Option TaskPhase := (s.store.task job.task).map Task.phase

/-- One step of the task of a job. -/
def Runner.jobStep (s : Runner) (j : ℕ) (job : Job) : JobAction → Option Runner
  | .request =>
    if job.phase = .spawned then
      some { s.setJob j { job with phase := .waiting } with memory := s.memory.acquire j (cfg.want job.claim) }
    else none
  | .resume =>
    if job.phase = .waiting then
      (s.memory.take j).map fun taken => { s.setJob j { job with phase := .executing } with memory := taken.2 }
    else none
  | .work statement =>
    if job.phase = .executing ∧ job.sandbox = none then
      (s.store.step (statement.on job.task)).map fun store => { s with store := store }
    else none
  | .startSandbox cached =>
    if job.phase = .executing ∧ job.sandbox = none ∧ job.attempts < maxSandboxAttempts ∧
        s.taskPhase job = some .executing then
      (cfg.startedSandbox job.claim cached).map fun sandbox =>
        s.setJob j { job with attempts := job.attempts + 1, sandbox := some sandbox }
    else none
  | .barrier ok =>
    match job.sandbox with
    | some sandbox =>
      if job.phase = .executing ∧ sandbox.compiling = true then
        -- an error of the write is ignored
        let memoryMax := if ok then megabytes job.claim.limits.memoryMb else sandbox.memoryMax
        some (s.setJob j { job with sandbox := some ⟨memoryMax, false⟩ })
      else none
    | none => none
  | .stopSandbox =>
    if job.phase = .executing ∧ job.sandbox ≠ none then some (s.setJob j { job with sandbox := none }) else none
  | .release =>
    if job.phase = .executing ∧ job.sandbox = none ∧ s.taskPhase job = some .done then
      some { s.setJob j { job with phase := .unlocking } with memory := s.memory.release (cfg.want job.claim) }
    else none
  | .unlock =>
    if job.phase = .unlocking then
      some { s.setJob j { job with phase := .notifying } with parallel := s.parallel + 1 }
    else none
  | .signal =>
    if job.phase = .notifying then
      some { s.setJob j { job with phase := .done } with slotFree := s.slotFree.notifyOne }
    else none

/-- One step of the system. -/
def Runner.step (s : Runner) : RunnerAction → Option Runner
  | .store a => if s.foreign cfg a then (storeStep s.store a).map fun store => { s with store := store } else none
  | .notify token =>
    if token ∈ s.store.rows.map Row.token then
      some { s with notified := token :: s.notified, listener := s.listener.notify token }
    else none
  | .tryAcquire =>
    match s.pc with
    | .acquiring =>
      if 0 < s.parallel then some { s with parallel := s.parallel - 1, pc := .claiming }
      else some { s with pc := .entering .busy }
    | _ => none
  | .claim locked token reply =>
    match s.pc with
    | .claiming =>
      (s.store.step (.claim cfg.workerId locked token reply)).bind fun store =>
        match reply with
        | .acknowledged =>
          store.tasks[s.store.tasks.length]?.map fun task =>
            { s with
              store := store
              pc := .acquiring
              jobs := s.jobs ++ [⟨task.job, s.store.tasks.length, .spawned, 0, none⟩] }
        | .lost | .failed => some ({ s with store := store }.leaveDrain .failed)
    | _ => none
  | .claimEmpty locked =>
    match s.pc with
    | .claiming => if ∀ r ∈ s.store.rows, r.free locked = false then some (s.leaveDrain .empty) else none
    | _ => none
  | .claimFails =>
    match s.pc with
    | .claiming => some (s.leaveDrain .failed)
    | _ => none
  | .enter =>
    match s.pc with
    | .entering exit =>
      match s.slotFree.poll () with
      | (true, slotFree) => some { s with slotFree := slotFree, pc := .acquiring }
      | (false, slotFree) => some { s with slotFree := slotFree, pc := .parked exit .connecting }
    | _ => none
  | .slotFreed =>
    match s.pc with
    | .parked _ _ =>
      match s.slotFree.poll () with
      | (true, slotFree) => some { s with slotFree := slotFree, listener := .idle, pc := .acquiring }
      | (false, _) => none
    | _ => none
  | .connect ok =>
    match s.pc with
    | .parked exit .connecting =>
      if ok then some { s with listener := Listener.idle.subscribe, pc := .parked exit .awaiting }
      else some { s with pc := .parked exit .fallback }
    | _ => none
  | .jobNotified =>
    match s.pc with
    | .parked _ .awaiting => if s.listener.pending = [] then none else some s.leavePark
    | _ => none
  | .listenerError =>
    match s.pc with
    | .parked exit .awaiting =>
      if s.listener.pending = [] then some { s with listener := .idle, pc := .parked exit .fallback } else none
    | _ => none
  | .elapsed =>
    match s.pc with
    | .parked _ .awaiting | .parked _ .fallback => some s.leavePark
    | _ => none
  | .shutdown =>
    match s.pc with
    | .entering _ | .parked _ _ => some { s.leavePark with pc := .stopped }
    | _ => none
  | .job j a => s.jobs[j]?.bind fun job => s.jobStep cfg j job a

/-- What a step of the task of a job found and what it left, one case for each way it can go. -/
inductive Runner.JobEffect (s : Runner) (j : ℕ) (job : Job) : JobAction → Runner → Prop
  | request (hphase : job.phase = .spawned) :
    JobEffect s j job .request
      { s.setJob j { job with phase := .waiting } with memory := s.memory.acquire j (cfg.want job.claim) }
  | resume (count : ℕ) (memory : Semaphore ℕ) (hphase : job.phase = .waiting)
    (htake : s.memory.take j = some (count, memory)) :
    JobEffect s j job .resume { s.setJob j { job with phase := .executing } with memory := memory }
  | work (statement : Statement) (store : Fleet) (hphase : job.phase = .executing)
    (hstore : s.store.step (statement.on job.task) = some store) :
    JobEffect s j job (.work statement) { s with store := store }
  | startSandbox (cached : Bool) (sandbox : RunningSandbox) (hphase : job.phase = .executing)
    (hstarted : cfg.startedSandbox job.claim cached = some sandbox) :
    JobEffect s j job (.startSandbox cached)
      (s.setJob j { job with attempts := job.attempts + 1, sandbox := some sandbox })
  | barrier (ok : Bool) (sandbox : RunningSandbox) (hphase : job.phase = .executing)
    (hsandbox : job.sandbox = some sandbox) :
    JobEffect s j job (.barrier ok)
      (s.setJob j
        { job with
          sandbox := some ⟨if ok then megabytes job.claim.limits.memoryMb else sandbox.memoryMax, false⟩ })
  | stopSandbox (hphase : job.phase = .executing) :
    JobEffect s j job .stopSandbox (s.setJob j { job with sandbox := none })
  | release (hphase : job.phase = .executing) (hsandbox : job.sandbox = none) :
    JobEffect s j job .release
      { s.setJob j { job with phase := .unlocking } with memory := s.memory.release (cfg.want job.claim) }
  | unlock (hphase : job.phase = .unlocking) :
    JobEffect s j job .unlock { s.setJob j { job with phase := .notifying } with parallel := s.parallel + 1 }
  | signal (hphase : job.phase = .notifying) :
    JobEffect s j job .signal { s.setJob j { job with phase := .done } with slotFree := s.slotFree.notifyOne }

/-- What a step found and what it left. -/
inductive Runner.Effect (s : Runner) : RunnerAction → Runner → Prop
  | store (a : StoreAction) (store : Fleet) (hstore : storeStep s.store a = some store) :
    Effect s (.store a) { s with store := store }
  | notify (token : Token) :
    Effect s (.notify token) { s with notified := token :: s.notified, listener := s.listener.notify token }
  | acquired (hpc : s.pc = .acquiring) (hfree : 0 < s.parallel) :
    Effect s .tryAcquire { s with parallel := s.parallel - 1, pc := .claiming }
  | busy (hpc : s.pc = .acquiring) (hnone : s.parallel = 0) : Effect s .tryAcquire { s with pc := .entering .busy }
  | claimed (locked : List Token) (token : Token) (store : Fleet) (claim : ClaimedJob) (hpc : s.pc = .claiming)
    (hstore : s.store.step (.claim cfg.workerId locked token .acknowledged) = some store) :
    Effect s (.claim locked token .acknowledged)
      { s with
        store := store
        pc := .acquiring
        jobs := s.jobs ++ [⟨claim, s.store.tasks.length, .spawned, 0, none⟩] }
  | claimLost (locked : List Token) (token : Token) (reply : Reply) (store : Fleet) (hpc : s.pc = .claiming)
    (hreply : reply ≠ .acknowledged)
    (hstore : s.store.step (.claim cfg.workerId locked token reply) = some store) :
    Effect s (.claim locked token reply) ({ s with store := store }.leaveDrain .failed)
  | claimEmpty (locked : List Token) (hpc : s.pc = .claiming) (hnone : ∀ r ∈ s.store.rows, r.free locked = false) :
    Effect s (.claimEmpty locked) (s.leaveDrain .empty)
  | claimFails (hpc : s.pc = .claiming) : Effect s .claimFails (s.leaveDrain .failed)
  | drainAgain (exit : DrainExit) (slotFree : Notify Unit) (hpc : s.pc = .entering exit)
    (hpoll : s.slotFree.poll () = (true, slotFree)) :
    Effect s .enter { s with slotFree := slotFree, pc := .acquiring }
  | park (exit : DrainExit) (slotFree : Notify Unit) (hpc : s.pc = .entering exit)
    (hpoll : s.slotFree.poll () = (false, slotFree)) :
    Effect s .enter { s with slotFree := slotFree, pc := .parked exit .connecting }
  | slotFreed (exit : DrainExit) (wake : WakePhase) (slotFree : Notify Unit) (hpc : s.pc = .parked exit wake)
    (hpoll : s.slotFree.poll () = (true, slotFree)) :
    Effect s .slotFreed { s with slotFree := slotFree, listener := .idle, pc := .acquiring }
  | connected (exit : DrainExit) (hpc : s.pc = .parked exit .connecting) :
    Effect s (.connect true) { s with listener := Listener.idle.subscribe, pc := .parked exit .awaiting }
  | notConnected (exit : DrainExit) (hpc : s.pc = .parked exit .connecting) :
    Effect s (.connect false) { s with pc := .parked exit .fallback }
  | jobNotified (exit : DrainExit) (hpc : s.pc = .parked exit .awaiting) (hpending : s.listener.pending ≠ []) :
    Effect s .jobNotified s.leavePark
  | listenerError (exit : DrainExit) (hpc : s.pc = .parked exit .awaiting) (hpending : s.listener.pending = []) :
    Effect s .listenerError { s with listener := .idle, pc := .parked exit .fallback }
  | elapsed (exit : DrainExit) (wake : WakePhase) (hpc : s.pc = .parked exit wake) : Effect s .elapsed s.leavePark
  | shutdown (hpc : (∃ exit, s.pc = .entering exit) ∨ ∃ exit wake, s.pc = .parked exit wake) :
    Effect s .shutdown { s.leavePark with pc := .stopped }
  | job (j : ℕ) (a : JobAction) (job : Job) (t : Runner) (hjob : s.jobs[j]? = some job)
    (heffect : s.JobEffect cfg j job a t) : Effect s (.job j a) t

variable {cfg : RunnerConfig}

/-- Every step of a job has one of the effects. -/
theorem Runner.jobEffect_of_step {s t : Runner} {j : ℕ} {job : Job} {a : JobAction}
    (hstep : s.jobStep cfg j job a = some t) : s.JobEffect cfg j job a t := by
  cases a with
  | request =>
    obtain ⟨hphase, heq⟩ := Option.ite_none_right_eq_some.mp hstep
    cases heq
    exact .request hphase
  | resume =>
    obtain ⟨hphase, heq⟩ := Option.ite_none_right_eq_some.mp hstep
    obtain ⟨taken, htake, rfl⟩ := Option.map_eq_some_iff.mp heq
    exact .resume taken.1 taken.2 hphase htake
  | work statement =>
    obtain ⟨⟨hphase, _⟩, heq⟩ := Option.ite_none_right_eq_some.mp hstep
    obtain ⟨store, hstore, rfl⟩ := Option.map_eq_some_iff.mp heq
    exact .work statement store hphase hstore
  | startSandbox cached =>
    obtain ⟨⟨hphase, _⟩, heq⟩ := Option.ite_none_right_eq_some.mp hstep
    obtain ⟨sandbox, hstarted, rfl⟩ := Option.map_eq_some_iff.mp heq
    exact .startSandbox cached sandbox hphase hstarted
  | barrier ok =>
    simp only [Runner.jobStep] at hstep
    split at hstep
    · rename_i sandbox hsandbox
      obtain ⟨⟨hphase, _⟩, heq⟩ := Option.ite_none_right_eq_some.mp hstep
      cases heq
      exact .barrier ok sandbox hphase hsandbox
    · cases hstep
  | stopSandbox =>
    obtain ⟨⟨hphase, _⟩, heq⟩ := Option.ite_none_right_eq_some.mp hstep
    cases heq
    exact .stopSandbox hphase
  | release =>
    obtain ⟨⟨hphase, hsandbox, _⟩, heq⟩ := Option.ite_none_right_eq_some.mp hstep
    cases heq
    exact .release hphase hsandbox
  | unlock =>
    obtain ⟨hphase, heq⟩ := Option.ite_none_right_eq_some.mp hstep
    cases heq
    exact .unlock hphase
  | signal =>
    obtain ⟨hphase, heq⟩ := Option.ite_none_right_eq_some.mp hstep
    cases heq
    exact .signal hphase

/-- Every step has one of the effects. -/
theorem Runner.effect_of_step {s t : Runner} {a : RunnerAction} (hstep : s.step cfg a = some t) :
    s.Effect cfg a t := by
  cases a with
  | store a =>
    obtain ⟨_, heq⟩ := Option.ite_none_right_eq_some.mp hstep
    obtain ⟨store, hstore, rfl⟩ := Option.map_eq_some_iff.mp heq
    exact .store a store hstore
  | notify token =>
    obtain ⟨_, heq⟩ := Option.ite_none_right_eq_some.mp hstep
    cases heq
    exact .notify token
  | tryAcquire =>
    simp only [Runner.step] at hstep
    split at hstep
    · rename_i hpc
      split at hstep
      · rename_i hfree
        cases hstep
        exact .acquired hpc hfree
      · rename_i hnone
        cases hstep
        exact .busy hpc (Nat.eq_zero_of_not_pos hnone)
    · cases hstep
  | claim locked token reply =>
    simp only [Runner.step] at hstep
    split at hstep
    · rename_i hpc
      obtain ⟨store, hstore, heq⟩ := Option.bind_eq_some_iff.mp hstep
      cases reply with
      | acknowledged =>
        obtain ⟨task, _, rfl⟩ := Option.map_eq_some_iff.mp heq
        exact .claimed locked token store task.job hpc hstore
      | lost =>
        cases heq
        exact .claimLost locked token .lost store hpc nofun hstore
      | failed =>
        cases heq
        exact .claimLost locked token .failed store hpc nofun hstore
    · cases hstep
  | claimEmpty locked =>
    simp only [Runner.step] at hstep
    split at hstep
    · rename_i hpc
      obtain ⟨hnone, heq⟩ := Option.ite_none_right_eq_some.mp hstep
      cases heq
      exact .claimEmpty locked hpc hnone
    · cases hstep
  | claimFails =>
    simp only [Runner.step] at hstep
    split at hstep
    · rename_i hpc
      cases hstep
      exact .claimFails hpc
    · cases hstep
  | enter =>
    simp only [Runner.step] at hstep
    split at hstep
    · rename_i exit hpc
      split at hstep
      · rename_i slotFree hpoll
        cases hstep
        exact .drainAgain exit slotFree hpc hpoll
      · rename_i slotFree hpoll
        cases hstep
        exact .park exit slotFree hpc hpoll
    · cases hstep
  | slotFreed =>
    simp only [Runner.step] at hstep
    split at hstep
    · rename_i exit wake hpc
      split at hstep
      · rename_i slotFree hpoll
        cases hstep
        exact .slotFreed exit wake slotFree hpc hpoll
      · cases hstep
    · cases hstep
  | connect ok =>
    simp only [Runner.step] at hstep
    split at hstep
    · rename_i exit hpc
      cases ok with
      | true =>
        cases hstep
        exact .connected exit hpc
      | false =>
        cases hstep
        exact .notConnected exit hpc
    · cases hstep
  | jobNotified =>
    simp only [Runner.step] at hstep
    split at hstep
    · rename_i exit hpc
      obtain ⟨hpending, heq⟩ := Option.ite_none_left_eq_some.mp hstep
      cases heq
      exact .jobNotified exit hpc hpending
    · cases hstep
  | listenerError =>
    simp only [Runner.step] at hstep
    split at hstep
    · rename_i exit hpc
      obtain ⟨hpending, heq⟩ := Option.ite_none_right_eq_some.mp hstep
      cases heq
      exact .listenerError exit hpc hpending
    · cases hstep
  | elapsed =>
    simp only [Runner.step] at hstep
    split at hstep
    · rename_i exit hpc
      cases hstep
      exact .elapsed exit .awaiting hpc
    · rename_i exit hpc
      cases hstep
      exact .elapsed exit .fallback hpc
    · cases hstep
  | shutdown =>
    simp only [Runner.step] at hstep
    split at hstep
    · rename_i exit hpc
      cases hstep
      exact .shutdown (Or.inl ⟨exit, hpc⟩)
    · rename_i exit wake hpc
      cases hstep
      exact .shutdown (Or.inr ⟨exit, wake, hpc⟩)
    · cases hstep
  | job j a =>
    obtain ⟨job, hjob, hjobStep⟩ := Option.bind_eq_some_iff.mp hstep
    exact .job j a job t hjob (Runner.jobEffect_of_step hjobStep)

end Steps

end ZeroCode.Worker
