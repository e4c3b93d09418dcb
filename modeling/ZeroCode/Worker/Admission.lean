import ZeroCode.Api.Create
import ZeroCode.Worker.Runner

/-!
# Admission of jobs

A job holds a permit from its claim until its task gives it back, and a reservation of
memory while its task is busy with it. Both are conserved, however the tasks interleave.
A job asks for no more memory than there is, so whenever nobody holds any, the first job in
the line for it has been granted its request.
-/

namespace ZeroCode.Worker

open ZeroCode.Core ZeroCode.Foundation ZeroCode.Sandbox

/-- The task of the job has not given back its permit. -/
def JobPhase.unfinished : JobPhase → Bool
  | .spawned | .waiting | .executing | .unlocking => true
  | .notifying | .done => false

/-- The job holds a permit. -/
def Job.unfinished (job : Job) : Bool := job.phase.unfinished

/-- The permit that the loop holds while it claims. -/
def LoopPc.slots : LoopPc → ℕ
  | .claiming => 1
  | _ => 0

section Admission

variable (cfg : RunnerConfig)

/-- The megabytes that a job holds. -/
def Job.reserved (job : Job) : ℕ := if job.phase = .executing then cfg.want job.claim else 0

/-- The permits of both semaphores are all accounted for. -/
structure Accounts (s : Runner) : Prop where
  memory : s.memory.available + (s.jobs.map (Job.reserved cfg)).sum = cfg.memBudget
  slots : s.parallel + s.jobs.countP Job.unfinished + s.pc.slots = cfg.parallelism

/-- The line for memory is the jobs that wait, each with what it wants. -/
structure LineInv (s : Runner) : Prop where
  tight : s.memory.Tight
  nodup : s.memory.line.Nodup
  line : ∀ j needed, (j, needed) ∈ s.memory.line ↔
    ∃ job, s.jobs[j]? = some job ∧ job.phase = .waiting ∧ needed = cfg.want job.claim

/-- A job asks for memory, and for no more than there is. -/
theorem want_bounds (claim : ClaimedJob) : 0 < cfg.want claim ∧ cfg.want claim ≤ cfg.memBudget := by
  have hbudget : 1 ≤ cfg.memBudget := le_max_left _ _
  exact ⟨Nat.lt_of_lt_of_le Nat.zero_lt_one (le_max_left _ _), max_le hbudget (min_le_right _ _)⟩

variable {cfg}

/-- Nothing is taken. -/
theorem Accounts.init : Accounts cfg (Runner.init cfg) := ⟨rfl, rfl⟩

/-- Nobody waits. -/
theorem LineInv.init : LineInv cfg (Runner.init cfg) where
  tight := Semaphore.tight_new _
  nodup := List.nodup_nil
  line _ _ := ⟨nofun, fun ⟨_, hjob, _⟩ => nomatch hjob⟩

/-- A step that moves a permit between the loop and the semaphore at most. -/
theorem Accounts.of_loop {s t : Runner} (h : Accounts cfg s) (hjobs : t.jobs = s.jobs) (hmemory : t.memory = s.memory)
    (hslots : t.parallel + t.pc.slots = s.parallel + s.pc.slots) : Accounts cfg t := by
  obtain ⟨hold, hslotsOld⟩ := h
  constructor
  · rw [hjobs, hmemory, hold]
  · rw [hjobs]
    omega

/-- A step that leaves the jobs and the memory alone. -/
theorem LineInv.of_loop {s t : Runner} (h : LineInv cfg s) (hjobs : t.jobs = s.jobs) (hmemory : t.memory = s.memory) :
    LineInv cfg t where
  tight := hmemory ▸ h.tight
  nodup := hmemory ▸ h.nodup
  line := by
    rw [hjobs, hmemory]
    exact h.line

/-- A step that replaces a job and moves its memory and its permit. -/
theorem Accounts.of_job {s t : Runner} (h : Accounts cfg s) {j : ℕ} {job job' : Job} (hjob : s.jobs[j]? = some job)
    (hjobs : t.jobs = s.jobs.set j job')
    (hmemory : t.memory.available + job'.reserved cfg = s.memory.available + job.reserved cfg)
    (hslots : t.parallel + t.pc.slots + job'.unfinished.toNat = s.parallel + s.pc.slots + job.unfinished.toNat) :
    Accounts cfg t := by
  obtain ⟨hold, hslotsOld⟩ := h
  have hsum : ((s.jobs.set j job').map (Job.reserved cfg)).sum + job.reserved cfg =
      (s.jobs.map (Job.reserved cfg)).sum + job'.reserved cfg := sum_map_set hjob
  have hcount : (s.jobs.set j job').countP Job.unfinished + job.unfinished.toNat =
      s.jobs.countP Job.unfinished + job'.unfinished.toNat := countP_set_add hjob
  constructor
  · rw [hjobs]
    omega
  · rw [hjobs]
    omega

/-- The jobs that wait, after one that does not wait was replaced. -/
theorem LineInv.set_of_not_waiting {s : Runner} (h : LineInv cfg s) {j : ℕ} {job job' : Job}
    (hjob : s.jobs[j]? = some job) (hbefore : job.phase ≠ .waiting) (k needed : ℕ) :
    (∃ other, (s.jobs.set j job')[k]? = some other ∧ other.phase = .waiting ∧ needed = cfg.want other.claim) ↔
      (k, needed) ∈ s.memory.line ∨ k = j ∧ job'.phase = .waiting ∧ needed = cfg.want job'.claim := by
  rw [h.line]
  by_cases hk : j = k
  · subst hk
    have hlt : j < s.jobs.length := (List.getElem?_eq_some_iff.mp hjob).1
    simp [List.getElem?_set_self hlt, hjob, hbefore]
  · simp [List.getElem?_set_ne hk, Ne.symm hk]

/-- A step that replaces a job which waits neither before nor behind it. -/
theorem LineInv.of_job {s t : Runner} (h : LineInv cfg s) {j : ℕ} {job job' : Job} (hjob : s.jobs[j]? = some job)
    (hjobs : t.jobs = s.jobs.set j job') (hbefore : job.phase ≠ .waiting) (hbehind : job'.phase ≠ .waiting)
    (htight : t.memory.Tight) (hline : t.memory.line = s.memory.line) : LineInv cfg t where
  tight := htight
  nodup := hline ▸ h.nodup
  line k needed := by
    rw [hjobs, h.set_of_not_waiting hjob hbefore, hline]
    simp [hbehind]

/-- A job that asks for memory goes to the end of the line. -/
theorem LineInv.request {s : Runner} (h : LineInv cfg s) {j : ℕ} {job : Job} (hjob : s.jobs[j]? = some job)
    (hphase : job.phase = .spawned) :
    LineInv cfg
      { s.setJob j { job with phase := .waiting } with memory := s.memory.acquire j (cfg.want job.claim) } := by
  obtain ⟨hpos, _⟩ := want_bounds cfg job.claim
  have hbefore : job.phase ≠ .waiting := by simp [hphase]
  have hline := Semaphore.line_acquire h.tight j hpos
  refine ⟨h.tight.acquire j hpos, ?_, fun k needed => ?_⟩
  · rw [hline]
    refine List.nodup_append.mpr ⟨h.nodup, List.nodup_singleton _, fun entry hentry last hlast heq => ?_⟩
    rw [List.mem_singleton.mp hlast] at heq
    subst heq
    obtain ⟨other, hother, hwaiting, _⟩ := (h.line _ _).mp hentry
    rw [hjob] at hother
    cases hother
    exact hbefore hwaiting
  · rw [hline, List.mem_append, List.mem_singleton, Prod.mk.injEq]
    refine Iff.trans ?_ (h.set_of_not_waiting hjob hbefore k needed).symm
    simp

/-- A job that has got its memory leaves the line. -/
theorem LineInv.resume {s : Runner} (h : LineInv cfg s) {j count : ℕ} {job : Job} {memory : Semaphore ℕ}
    (hjob : s.jobs[j]? = some job) (htake : s.memory.take j = some (count, memory)) :
    count = cfg.want job.claim ∧
      LineInv cfg { s.setJob j { job with phase := .executing } with memory := memory } := by
  obtain ⟨hmem, hline⟩ := Semaphore.line_of_take htake
  have hlt : j < s.jobs.length := (List.getElem?_eq_some_iff.mp hjob).1
  have hcount : count = cfg.want job.claim := by
    obtain ⟨other, hother, _, hcount⟩ := (h.line _ _).mp hmem
    rw [hjob] at hother
    cases hother
    exact hcount
  refine ⟨hcount, h.tight.take htake, hline ▸ h.nodup.erase _, fun k needed => ?_⟩
  change (k, needed) ∈ memory.line ↔ _
  rw [hline, h.nodup.mem_erase_iff, h.line]
  simp only [Runner.setJob]
  by_cases hk : j = k
  · subst hk
    simp only [List.getElem?_set_self hlt, hjob, Option.some.injEq, exists_eq_left', reduceCtorEq, false_and,
      iff_false, not_and, hcount]
    exact fun hne _ hneeded => hne (by rw [hneeded])
  · rw [List.getElem?_set_ne hk]
    exact and_iff_right fun heq => hk (Prod.mk.inj heq).1.symm

/-- Every step of a job keeps the line. -/
theorem LineInv.of_jobEffect {s t : Runner} (h : LineInv cfg s) {j : ℕ} {job : Job} {a : JobAction}
    (hjob : s.jobs[j]? = some job) (heffect : s.JobEffect cfg j job a t) : LineInv cfg t := by
  cases heffect with
  | request hphase => exact h.request hjob hphase
  | resume count memory hphase htake => exact (h.resume hjob htake).2
  | work statement store hphase hstore => exact h.of_loop rfl rfl
  | startSandbox cached sandbox hphase hstarted =>
    exact h.of_job hjob rfl (by simp [hphase]) (by simp [hphase]) h.tight rfl
  | barrier ok sandbox hphase hsandbox => exact h.of_job hjob rfl (by simp [hphase]) (by simp [hphase]) h.tight rfl
  | stopSandbox hphase => exact h.of_job hjob rfl (by simp [hphase]) (by simp [hphase]) h.tight rfl
  | release hphase hsandbox =>
    exact h.of_job hjob rfl (by simp [hphase]) (by simp) (h.tight.release _) (Semaphore.line_release _ _)
  | unlock hphase => exact h.of_job hjob rfl (by simp [hphase]) (by simp) h.tight rfl
  | signal hphase => exact h.of_job hjob rfl (by simp [hphase]) (by simp) h.tight rfl

/-- Every step of a job keeps the accounts, given what a request in the line amounts to. -/
theorem Accounts.of_jobEffect {s t : Runner} (h : Accounts cfg s) (hline : LineInv cfg s) {j : ℕ} {job : Job}
    {a : JobAction} (hjob : s.jobs[j]? = some job) (heffect : s.JobEffect cfg j job a t) : Accounts cfg t := by
  cases heffect with
  | request hphase =>
    exact h.of_job hjob rfl (by simp [Job.reserved, hphase])
      (by simp [Runner.setJob, Job.unfinished, JobPhase.unfinished, hphase])
  | resume count memory hphase htake =>
    refine h.of_job hjob rfl ?_ (by simp [Runner.setJob, Job.unfinished, JobPhase.unfinished, hphase])
    have hcount := (hline.resume hjob htake).1
    have htaken := Semaphore.available_of_take htake
    simp only [Job.reserved, hphase, reduceCtorEq, if_true, if_false]
    omega
  | work statement store hphase hstore => exact h.of_loop rfl rfl rfl
  | startSandbox cached sandbox hphase hstarted => exact h.of_job hjob rfl rfl rfl
  | barrier ok sandbox hphase hsandbox => exact h.of_job hjob rfl rfl rfl
  | stopSandbox hphase => exact h.of_job hjob rfl rfl rfl
  | release hphase hsandbox =>
    exact h.of_job hjob rfl (by simp [Job.reserved, hphase])
      (by simp [Runner.setJob, Job.unfinished, JobPhase.unfinished, hphase])
  | unlock hphase =>
    refine h.of_job hjob rfl (by simp [Runner.setJob, Job.reserved, hphase]) ?_
    simp only [Runner.setJob, Job.unfinished, JobPhase.unfinished, hphase, Bool.toNat_true, Bool.toNat_false]
    omega
  | signal hphase =>
    exact h.of_job hjob rfl (by simp [Runner.setJob, Job.reserved, hphase])
      (by simp [Runner.setJob, Job.unfinished, JobPhase.unfinished, hphase])

/-- A claim starts a job with the permit of the loop. -/
theorem Accounts.claimed {s : Runner} (h : Accounts cfg s) (hpc : s.pc = .claiming) (store : Fleet) (claim : ClaimedJob)
    (task : ℕ) :
    Accounts cfg
      { s with store := store, pc := .acquiring, jobs := s.jobs ++ [⟨claim, task, .spawned, 0, none⟩] } := by
  obtain ⟨hmemory, hslots⟩ := h
  constructor
  · simpa [Job.reserved] using hmemory
  · simp only [hpc, LoopPc.slots] at hslots
    simp only [List.countP_append, List.countP_singleton, Job.unfinished, JobPhase.unfinished, LoopPc.slots, if_true]
    omega

/-- A job that was just started does not wait. -/
theorem LineInv.claimed {s : Runner} (h : LineInv cfg s) (store : Fleet) (claim : ClaimedJob) (task : ℕ) :
    LineInv cfg
      { s with store := store, pc := .acquiring, jobs := s.jobs ++ [⟨claim, task, .spawned, 0, none⟩] } where
  tight := h.tight
  nodup := h.nodup
  line k needed := by
    rw [h.line]
    refine exists_congr fun job => and_congr_left fun hwaiting => ?_
    rw [List.getElem?_append]
    split
    · rfl
    · rename_i hlt
      rw [List.getElem?_eq_none (Nat.le_of_not_lt hlt)]
      constructor
      · nofun
      · intro hnew
        have hmem := List.mem_of_getElem? hnew
        rw [List.mem_singleton.mp hmem] at hwaiting
        exact absurd hwaiting.1 (by simp)

/-- Every step keeps the line. -/
theorem LineInv.of_step {s t : Runner} {a : RunnerAction} (h : LineInv cfg s) (hstep : s.step cfg a = some t) :
    LineInv cfg t := by
  cases Runner.effect_of_step hstep with
  | job j a job t hjob heffect => exact h.of_jobEffect hjob heffect
  | claimed locked token store claim hpc hstore => exact h.claimed store claim _
  | store | notify | acquired | busy | claimLost | claimEmpty | claimFails | drainAgain | park | slotFreed | connected
  | notConnected | jobNotified | listenerError | elapsed | shutdown => exact h.of_loop rfl rfl

/-- Every step keeps the accounts. -/
theorem Accounts.of_step {s t : Runner} {a : RunnerAction} (h : Accounts cfg s) (hline : LineInv cfg s)
    (hstep : s.step cfg a = some t) : Accounts cfg t := by
  cases Runner.effect_of_step hstep with
  | job j a job t hjob heffect => exact h.of_jobEffect hline hjob heffect
  | claimed locked token store claim hpc hstore => exact h.claimed hpc store claim _
  | store | notify => exact h.of_loop rfl rfl rfl
  | acquired hpc hfree =>
    refine h.of_loop rfl rfl ?_
    simp only [hpc, LoopPc.slots]
    omega
  | busy hpc hnone => exact h.of_loop rfl rfl (by simp [hpc, LoopPc.slots])
  | claimLost locked token reply store hpc hreply hstore =>
    exact h.of_loop rfl rfl (by simp [Runner.leaveDrain, hpc, LoopPc.slots])
  | claimEmpty locked hpc hnone => exact h.of_loop rfl rfl (by simp [Runner.leaveDrain, hpc, LoopPc.slots])
  | claimFails hpc => exact h.of_loop rfl rfl (by simp [Runner.leaveDrain, hpc, LoopPc.slots])
  | drainAgain exit slotFree hpc hpoll => exact h.of_loop rfl rfl (by simp [hpc, LoopPc.slots])
  | park exit slotFree hpc hpoll => exact h.of_loop rfl rfl (by simp [hpc, LoopPc.slots])
  | slotFreed exit wake slotFree hpc hpoll => exact h.of_loop rfl rfl (by simp [hpc, LoopPc.slots])
  | connected exit hpc => exact h.of_loop rfl rfl (by simp [hpc, LoopPc.slots])
  | notConnected exit hpc => exact h.of_loop rfl rfl (by simp [hpc, LoopPc.slots])
  | jobNotified exit hpc hpending => exact h.of_loop rfl rfl (by simp [Runner.leavePark, hpc, LoopPc.slots])
  | listenerError exit hpc hpending => exact h.of_loop rfl rfl (by simp [hpc, LoopPc.slots])
  | elapsed exit wake hpc => exact h.of_loop rfl rfl (by simp [Runner.leavePark, hpc, LoopPc.slots])
  | shutdown hpc =>
    refine h.of_loop rfl rfl ?_
    rcases hpc with ⟨exit, hpc⟩ | ⟨exit, wake, hpc⟩ <;> simp [Runner.leavePark, hpc, LoopPc.slots]

/-- Along every run the permits are accounted for, and the line is the jobs that wait. -/
theorem admissionInv_of_reachable {s : Runner} (reached : Reachable (Runner.step cfg) (Runner.init cfg) s) :
    Accounts cfg s ∧ LineInv cfg s :=
  reached.invariant (fun s => Accounts cfg s ∧ LineInv cfg s) ⟨.init, .init⟩ fun _ _ _ hinv _ hstep =>
    ⟨hinv.1.of_step hinv.2 hstep, hinv.2.of_step hstep⟩

/-- Jobs that do not execute hold no memory. -/
theorem sum_reserved_eq_zero {s : Runner} (hidle : ∀ job ∈ s.jobs, job.phase ≠ .executing) :
    (s.jobs.map (Job.reserved cfg)).sum = 0 := by
  refine List.sum_eq_zero fun count hcount => ?_
  obtain ⟨other, hother, rfl⟩ := List.mem_map.mp hcount
  exact if_neg (hidle other hother)

/-- Where every task is done, all permits of both semaphores are free. -/
theorem permits_returned {s : Runner} (h : Accounts cfg s) (hline : LineInv cfg s)
    (hdone : ∀ job ∈ s.jobs, job.phase = .done) (hpc : s.pc ≠ .claiming) :
    s.memory.permits = cfg.memBudget ∧ s.parallel = cfg.parallelism := by
  have hempty : s.memory.line = [] := by
    refine List.eq_nil_iff_forall_not_mem.mpr fun entry hentry => ?_
    obtain ⟨job, hjob, hwaiting, _⟩ := (hline.line entry.1 entry.2).mp hentry
    rw [hdone job (List.mem_of_getElem? hjob)] at hwaiting
    cases hwaiting
  have hreserved : (s.jobs.map (Job.reserved cfg)).sum = 0 :=
    sum_reserved_eq_zero fun job hjob => by simp [hdone job hjob]
  have hfinished : s.jobs.countP Job.unfinished = 0 :=
    List.countP_eq_zero.mpr fun job hjob => by simp [Job.unfinished, JobPhase.unfinished, hdone job hjob]
  have hslots : s.pc.slots = 0 := by
    cases hcase : s.pc with
    | claiming => exact absurd hcase hpc
    | _ => rfl
  obtain ⟨hmemory, hparallel⟩ := h
  rw [Semaphore.available_of_line_nil hempty, hreserved] at hmemory
  rw [hfinished, hslots] at hparallel
  exact ⟨hmemory, hparallel⟩

/-- Where nobody holds memory, the first in the line can take what it wants. -/
theorem exists_take_of_idle {s : Runner} (h : Accounts cfg s) (hline : LineInv cfg s)
    (hidle : ∀ job ∈ s.jobs, job.phase ≠ .executing) {j : ℕ} {job : Job} (hjob : s.jobs[j]? = some job)
    (hwaiting : job.phase = .waiting) :
    ∃ head needed memory, s.memory.line.head? = some (head, needed) ∧ needed ≤ s.memory.available ∧
      s.memory.take head = some (needed, memory) := by
  have hnone : (s.jobs.map (Job.reserved cfg)).sum = 0 := sum_reserved_eq_zero hidle
  have hmem : (j, cfg.want job.claim) ∈ s.memory.line := (hline.line _ _).mpr ⟨job, hjob, hwaiting, rfl⟩
  obtain ⟨⟨head, needed⟩, rest, hrest⟩ := List.exists_cons_of_ne_nil (List.ne_nil_of_mem hmem)
  have hhead : s.memory.line.head? = some (head, needed) := by rw [hrest, List.head?_cons]
  obtain ⟨first, _, _, hneeded⟩ := (hline.line head needed).mp (by rw [hrest]; exact List.mem_cons_self)
  have hfits : needed ≤ s.memory.available := by
    have hbound := (want_bounds cfg first.claim).2
    have hall := h.memory
    omega
  obtain ⟨memory, htake⟩ := Semaphore.exists_take_of_head hline.tight hhead hfits
  exact ⟨head, needed, memory, hhead, hfits, htake⟩

/-- However many jobs of whatever size are claimed and end in whatever way: the memory that nobody holds, with
what is set aside in the line, and the memory of the jobs add up to the budget; the permits of both semaphores
are all there once every task is done; no more jobs are unfinished than may run at a time; and while a job waits
for memory another one is executing, or the request of the first in the line fits and can be taken. -/
theorem admission_conserved {s : Runner} (reached : Reachable (Runner.step cfg) (Runner.init cfg) s) :
    s.memory.available + (s.jobs.map (Job.reserved cfg)).sum = cfg.memBudget ∧
      s.parallel + s.jobs.countP Job.unfinished + s.pc.slots = cfg.parallelism ∧
        ((∀ job ∈ s.jobs, job.phase = .done) → s.pc ≠ .claiming →
          s.memory.permits = cfg.memBudget ∧ s.parallel = cfg.parallelism) ∧
          s.jobs.countP Job.unfinished ≤ max cfg.maxParallel 1 ∧
            ∀ job ∈ s.jobs, job.phase = .waiting →
              (∃ other ∈ s.jobs, other.phase = .executing) ∨
                ∃ head needed memory, s.memory.line.head? = some (head, needed) ∧
                  needed ≤ s.memory.available ∧ s.memory.take head = some (needed, memory) := by
  obtain ⟨h, hline⟩ := admissionInv_of_reachable reached
  refine ⟨h.memory, h.slots, permits_returned h hline, ?_, fun job hjob hwaiting => ?_⟩
  · have hslots := h.slots
    unfold RunnerConfig.parallelism at hslots
    omega
  · by_cases hbusy : ∃ other ∈ s.jobs, other.phase = .executing
    · exact Or.inl hbusy
    · obtain ⟨j, hj⟩ := List.mem_iff_getElem?.mp hjob
      refine Or.inr (exists_take_of_idle h hline (fun other hother hphase => hbusy ⟨other, hother, hphase⟩) hj hwaiting)

end Admission

/-- A language whose compiler may use more memory than its programs. -/
def cppSpec : LanguageSpec :=
  ⟨52, "main.cpp", some ["/usr/bin/g++-14", "main.cpp", "-o", "prog"], ["./prog"], [], none,
    some { ResourceLimits.default with memoryMb := 512 }⟩

/-- A worker for two jobs with 256 megabytes, which knows an interpreted and a compiled language. -/
def smallWorker : RunnerConfig := ⟨"w", cppSpec :: Api.pythonState.languages, 2, 256⟩

/-- A submission with the given memory limit is inserted, claimed as the given job, and its task asks for
memory. -/
def claimedAs (j : ℕ) (token : Token) (languageId memoryMb : ℕ) : List RunnerAction :=
  let new := Api.pythonRequest.newSubmission { ResourceLimits.default with memoryMb := memoryMb } token none []
  [.store (.fleet (.insert { new with languageId := languageId })), .tryAcquire, .claim [] token .acknowledged,
    .job j .request]

/-- The task of the job begins. -/
def begun (j : ℕ) : List RunnerAction := [.job j .resume, .job j (.work (.publishProcessing true))]

/-- The sandbox of the job fails, and its task gives everything back. -/
def failed (j : ℕ) : List RunnerAction :=
  [.job j (.work (.execute none)), .job j (.work (.writeSandboxFailure 1 .acknowledged)),
    .job j (.work (.publishFinished true)), .job j .release, .job j .unlock, .job j .signal]

/-- One job fails, another one executes, and a third one waits for the memory of the second. -/
def crowdedRun : List RunnerAction :=
  claimedAs 0 1 71 100 ++ begun 0 ++ failed 0 ++ claimedAs 1 2 71 200 ++ begun 1 ++ claimedAs 2 3 71 200

/-- The worker after that run. -/
def crowdedRunner : Runner := lastState (Runner.step smallWorker) (Runner.init smallWorker) crowdedRun

/-- The third job waits with what the second left over set aside for it. -/
theorem admission_conserved_crowdedRun :
    crowdedRunner.jobs.map Job.phase = [.done, .executing, .waiting] ∧
      crowdedRunner.memory = ⟨0, [], [⟨2, 144, 56⟩]⟩ ∧
        crowdedRunner.memory.available + (crowdedRunner.jobs.map (Job.reserved smallWorker)).sum = 256 ∧
          crowdedRunner.jobs.countP Job.unfinished ≤ 2 := by
  have reached : Reachable (Runner.step smallWorker) (Runner.init smallWorker) crowdedRunner :=
    .of_runActions crowdedRun (runActions_eq_lastState (by decide +kernel))
  obtain ⟨hmemory, _, _, hparallel, _⟩ := admission_conserved reached
  exact ⟨by decide +kernel, by decide +kernel, hmemory, hparallel⟩

end ZeroCode.Worker
