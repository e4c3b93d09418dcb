import ZeroCode.Foundation.Transition
import ZeroCode.Worker.Rows

/-!
# The workers over the table

Any number of workers claim rows, execute them and write them back, while submissions
arrive and a sweeper returns stale claims to the queue. A claim starts a task of its own.
A statement may commit although its acknowledgement is lost, in which case the caller sees
an error and goes on as if nothing had been written: a task whose result could not be
written writes a sandbox failure instead.
-/

namespace ZeroCode.Worker

open ZeroCode.Core ZeroCode.Foundation ZeroCode.Sandbox

/-- What a worker broadcasts about a submission. -/
inductive Event
  | processing
  | stdoutChunk (data : String)
  | stderrChunk (data : String)
  | finished (status : Status)
  deriving DecidableEq, Repr

/-- Where the task of a claim is. -/
inductive TaskPhase
  | claimed
  | executing
  | writing (result : SandboxResult)
  | failing
  | publishing (status : Status)
  | done
  deriving DecidableEq, Repr

/-- The task of a claim; `wrote` is set once one of its writes committed. -/
structure Task where
  workerId : String
  job : ClaimedJob
  phase : TaskPhase
  wrote : Bool
  crashed : Bool
  deriving DecidableEq, Repr

/-- The clock of the database, its table and the tasks of all workers in the order of their claims. -/
structure Fleet where
  now : ℚ
  rows : List Row
  tasks : List Task
  deriving DecidableEq, Repr

/-- How a statement ends for its caller. -/
inductive Reply
  | acknowledged
  | lost
  | failed
  deriving DecidableEq, Repr

/-- The statement took effect. -/
def Reply.committed : Reply → Bool
  | .acknowledged | .lost => true
  | .failed => false

/-- A step of the API, of a worker, of the sweeper, or of time. -/
inductive FleetAction
  | insert (new : NewSubmission)
  | claim (workerId : String) (locked : List Token) (token : Token) (reply : Reply)
  | publishProcessing (i : ℕ) (ok : Bool)
  | execute (i : ℕ) (outcome : Option SandboxResult)
  | writeResult (i : ℕ) (reply : Reply)
  | writeSandboxFailure (i : ℕ) (elapsed : ℚ) (reply : Reply)
  | publishFinished (i : ℕ) (ok : Bool)
  | crash (i : ℕ)
  | sweep
  | tick (elapsed : ℚ)
  deriving DecidableEq, Repr

/-- An empty table and no worker. -/
def Fleet.init : Fleet := ⟨0, [], []⟩

/-- The task with the given number, unless its worker crashed. -/
def Fleet.task (s : Fleet) (i : ℕ) : Option Task :=
  match s.tasks[i]? with
  | some task => if task.crashed then none else some task
  | none => none

/-- Replace a task. -/
def Fleet.setTask (s : Fleet) (i : ℕ) (task : Task) : Fleet := { s with tasks := s.tasks.set i task }

/-- One step of the system. -/
def Fleet.step (s : Fleet) : FleetAction → Option Fleet
  | .insert new => (insertSubmission s.rows s.now new).map fun rows => { s with rows := rows }
  | .claim workerId locked token reply =>
    match claimNext s.rows s.now workerId locked token with
    | none => none
    | some (rows, job) =>
      match reply with
      | .acknowledged => some { s with rows := rows, tasks := s.tasks ++ [⟨workerId, job, .claimed, false, false⟩] }
      | .lost => some { s with rows := rows }
      | .failed => some s
  -- the result of a broadcast is ignored
  | .publishProcessing i _ =>
    match s.task i with
    | some task => if task.phase = .claimed then some (s.setTask i { task with phase := .executing }) else none
    | none => none
  | .execute i outcome =>
    match s.task i with
    | some task =>
      if task.phase = .executing then
        match outcome with
        | some result => some (s.setTask i { task with phase := .writing result })
        -- an unknown language, or an error of the sandbox after its retry
        | none => some (s.setTask i { task with phase := .failing })
      else none
    | none => none
  | .writeResult i reply =>
    match s.task i with
    | some task =>
      match task.phase with
      | .writing result =>
        let rows := if reply.committed then writeResult s.rows s.now task.job.token result else s.rows
        let phase := if reply = .acknowledged then .publishing result.status else .failing
        some { s.setTask i { task with phase := phase, wrote := reply.committed } with rows := rows }
      | _ => none
    | none => none
  | .writeSandboxFailure i elapsed reply =>
    match s.task i with
    | some task =>
      if task.phase = .failing then
        let rows := if reply.committed then writeSandboxFailure s.rows s.now task.job.token elapsed else s.rows
        some { s.setTask i
          { task with phase := .publishing .sandboxFailure, wrote := task.wrote || reply.committed } with rows := rows }
      else none
    | none => none
  | .publishFinished i _ =>
    match s.task i with
    | some task =>
      match task.phase with
      | .publishing _ => some (s.setTask i { task with phase := .done })
      | _ => none
    | none => none
  | .crash i =>
    match s.task i with
    | some task => some (s.setTask i { task with crashed := true })
    | none => none
  | .sweep => some { s with rows := sweepStale s.rows s.now }
  | .tick elapsed => if 0 ≤ elapsed then some { s with now := s.now + elapsed } else none

/-- What a step broadcasts, and about which submission. -/
def Fleet.published (s : Fleet) : FleetAction → Option (Token × Event)
  | .publishProcessing i true => (s.task i).map fun task => (task.job.token, .processing)
  | .publishFinished i true =>
    match s.task i with
    | some task =>
      match task.phase with
      | .publishing status => some (task.job.token, .finished status)
      | _ => none
    | none => none
  | _ => none

/-- A task that may move is one of the list. -/
theorem Fleet.getElem_of_task {s : Fleet} {i : ℕ} {task : Task} (h : s.task i = some task) :
    s.tasks[i]? = some task ∧ task.crashed = false := by
  unfold Fleet.task at h
  split at h
  · rename_i task' htask
    split at h
    · cases h
    · rename_i hcrashed
      cases h
      exact ⟨htask, by simpa using hcrashed⟩
  · cases h

/-- The tasks after one of them was replaced. -/
theorem Fleet.getElem_setTask {s : Fleet} {i j : ℕ} {old new task : Task} (hold : s.tasks[i]? = some old)
    (h : (s.setTask i new).tasks[j]? = some task) : (j = i ∧ task = new) ∨ (j ≠ i ∧ s.tasks[j]? = some task) := by
  unfold Fleet.setTask at h
  by_cases hij : i = j
  · subst hij
    obtain ⟨hlt, _⟩ := List.getElem?_eq_some_iff.mp hold
    rw [List.getElem?_set_self hlt] at h
    exact Or.inl ⟨rfl, (Option.some.inj h).symm⟩
  · rw [List.getElem?_set_ne hij] at h
    exact Or.inr ⟨Ne.symm hij, h⟩

/-- What a step found and what it left, one case for each way it can go. -/
inductive Fleet.Effect (s : Fleet) : FleetAction → Fleet → Prop
  | insert (new : NewSubmission) (hfresh : new.token ∉ s.rows.map Row.token) :
    Effect s (.insert new) { s with rows := s.rows ++ [new.row s.now] }
  | claim (workerId : String) (locked : List Token) (next : Row) (hnext : next ∈ s.rows)
    (hqueued : next.status = .queued) :
    Effect s (.claim workerId locked next.token .acknowledged)
      { s with
        rows := updateWhere (fun r => r.token == next.token) (Row.claim s.now workerId) s.rows
        tasks := s.tasks ++ [⟨workerId, next.claimedJob, .claimed, false, false⟩] }
  | claimLost (workerId : String) (locked : List Token) (next : Row) (hnext : next ∈ s.rows)
    (hqueued : next.status = .queued) :
    Effect s (.claim workerId locked next.token .lost)
      { s with rows := updateWhere (fun r => r.token == next.token) (Row.claim s.now workerId) s.rows }
  | claimFailed (workerId : String) (locked : List Token) (token : Token) :
    Effect s (.claim workerId locked token .failed) s
  | publishProcessing (i : ℕ) (ok : Bool) (task : Task) (htask : s.task i = some task)
    (hphase : task.phase = .claimed) :
    Effect s (.publishProcessing i ok) (s.setTask i { task with phase := .executing })
  | execute (i : ℕ) (result : SandboxResult) (task : Task) (htask : s.task i = some task)
    (hphase : task.phase = .executing) :
    Effect s (.execute i (some result)) (s.setTask i { task with phase := .writing result })
  | executeFailed (i : ℕ) (task : Task) (htask : s.task i = some task) (hphase : task.phase = .executing) :
    Effect s (.execute i none) (s.setTask i { task with phase := .failing })
  | writeResult (i : ℕ) (reply : Reply) (hcommitted : reply.committed = true) (task : Task)
    (htask : s.task i = some task) (result : SandboxResult) (hphase : task.phase = .writing result) :
    Effect s (.writeResult i reply)
      { s.setTask i
          { task with phase := if reply = .acknowledged then .publishing result.status else .failing, wrote := true } with
        rows := writeResult s.rows s.now task.job.token result }
  | writeResultFailed (i : ℕ) (task : Task) (htask : s.task i = some task) (result : SandboxResult)
    (hphase : task.phase = .writing result) :
    Effect s (.writeResult i .failed) (s.setTask i { task with phase := .failing, wrote := false })
  | writeSandboxFailure (i : ℕ) (elapsed : ℚ) (reply : Reply) (hcommitted : reply.committed = true) (task : Task)
    (htask : s.task i = some task) (hphase : task.phase = .failing) :
    Effect s (.writeSandboxFailure i elapsed reply)
      { s.setTask i { task with phase := .publishing .sandboxFailure, wrote := true } with
        rows := writeSandboxFailure s.rows s.now task.job.token elapsed }
  | writeSandboxFailureFailed (i : ℕ) (elapsed : ℚ) (task : Task) (htask : s.task i = some task)
    (hphase : task.phase = .failing) :
    Effect s (.writeSandboxFailure i elapsed .failed)
      (s.setTask i { task with phase := .publishing .sandboxFailure })
  | publishFinished (i : ℕ) (ok : Bool) (task : Task) (htask : s.task i = some task) (status : Status)
    (hphase : task.phase = .publishing status) :
    Effect s (.publishFinished i ok) (s.setTask i { task with phase := .done })
  | crash (i : ℕ) (task : Task) (htask : s.task i = some task) :
    Effect s (.crash i) (s.setTask i { task with crashed := true })
  | sweep : Effect s .sweep { s with rows := sweepStale s.rows s.now }
  | tick (elapsed : ℚ) (hnonneg : 0 ≤ elapsed) : Effect s (.tick elapsed) { s with now := s.now + elapsed }

/-- Every step has one of the effects. -/
theorem Fleet.effect_of_step {s t : Fleet} {a : FleetAction} (hstep : s.step a = some t) : s.Effect a t := by
  cases a with
  | insert new =>
    obtain ⟨rows, hrows, rfl⟩ := Option.map_eq_some_iff.mp hstep
    unfold insertSubmission at hrows
    split at hrows
    · cases hrows
    · rename_i hfresh
      cases hrows
      exact .insert new hfresh
  | claim workerId locked token reply =>
    simp only [Fleet.step] at hstep
    split at hstep
    · cases hstep
    · rename_i rows job hclaim
      obtain ⟨⟨next, hnext, rfl, hqueued, rfl⟩, rfl⟩ := claimNext_spec hclaim
      cases reply <;> cases hstep
      · exact .claim workerId locked next hnext hqueued
      · exact .claimLost workerId locked next hnext hqueued
      · exact .claimFailed workerId locked next.token
  | publishProcessing i ok =>
    simp only [Fleet.step] at hstep
    split at hstep
    · rename_i task htask
      split at hstep
      · rename_i hphase
        cases hstep
        exact .publishProcessing i ok task htask hphase
      · cases hstep
    · cases hstep
  | execute i outcome =>
    simp only [Fleet.step] at hstep
    split at hstep
    · rename_i task htask
      split at hstep
      · rename_i hphase
        cases outcome with
        | some result =>
          cases hstep
          exact .execute i result task htask hphase
        | none =>
          cases hstep
          exact .executeFailed i task htask hphase
      · cases hstep
    · cases hstep
  | writeResult i reply =>
    simp only [Fleet.step] at hstep
    split at hstep
    · rename_i task htask
      split at hstep
      · rename_i result hphase
        cases reply <;> cases hstep
        · exact .writeResult i .acknowledged rfl task htask result hphase
        · exact .writeResult i .lost rfl task htask result hphase
        · exact .writeResultFailed i task htask result hphase
      · cases hstep
    · cases hstep
  | writeSandboxFailure i elapsed reply =>
    simp only [Fleet.step] at hstep
    split at hstep
    · rename_i task htask
      split at hstep
      · rename_i hphase
        cases reply <;> cases hstep
        · rw [Reply.committed, Bool.or_true]
          exact .writeSandboxFailure i elapsed .acknowledged rfl task htask hphase
        · rw [Reply.committed, Bool.or_true]
          exact .writeSandboxFailure i elapsed .lost rfl task htask hphase
        · rw [Reply.committed, Bool.or_false]
          exact .writeSandboxFailureFailed i elapsed task htask hphase
      · cases hstep
    · cases hstep
  | publishFinished i ok =>
    simp only [Fleet.step] at hstep
    split at hstep
    · rename_i task htask
      split at hstep
      · rename_i status hphase
        cases hstep
        exact .publishFinished i ok task htask status hphase
      · cases hstep
    · cases hstep
  | crash i =>
    simp only [Fleet.step] at hstep
    split at hstep
    · rename_i task htask
      cases hstep
      exact .crash i task htask
    · cases hstep
  | sweep =>
    cases hstep
    exact .sweep
  | tick elapsed =>
    simp only [Fleet.step] at hstep
    split at hstep
    · rename_i hnonneg
      cases hstep
      exact .tick elapsed hnonneg
    · cases hstep

/-- What a step does to the table: nothing, a new row, rows that are open again, or the write of a task. -/
inductive Fleet.RowsEffect (s t : Fleet) : Prop
  | same (hrows : t.rows = s.rows)
  | inserted (new : NewSubmission) (hfresh : new.token ∉ s.rows.map Row.token)
    (hrows : t.rows = s.rows ++ [new.row s.now])
  | reopened (condition : Row → Bool) (f : Row → Row) (hrows : t.rows = updateWhere condition f s.rows)
    (htoken : ∀ r, (f r).token = r.token) (hopen : ∀ r, (f r).status.isTerminal = false)
    (hselected : ∀ r ∈ s.rows, condition r = true →
      ∃ old ∈ s.rows, old.token = r.token ∧ old.status.isTerminal = false)
  | written (i : ℕ) (task new : Task) (f : Row → Row) (htask : s.task i = some task)
    (hphase : task.phase = .failing ∨ ∃ result, task.phase = .writing result)
    (hrows : t.rows = updateWhere (fun r => r.token == task.job.token) f s.rows)
    (htoken : ∀ r, (f r).token = r.token) (htasks : t.tasks = (s.setTask i new).tasks) (hjob : new.job = task.job)
    (hwrote : new.wrote = true) (hnext : new.phase = .failing ∨ ∃ status, new.phase = .publishing status)

/-- Every step does one of these to the table. -/
theorem Fleet.rowsEffect_of_step {s t : Fleet} {a : FleetAction} (hstep : s.step a = some t) : s.RowsEffect t := by
  have claimed {next : Row} (hnext : next ∈ s.rows) (hqueued : next.status = .queued) (r : Row) (_ : r ∈ s.rows)
      (hselected : (r.token == next.token) = true) :
      ∃ old ∈ s.rows, old.token = r.token ∧ old.status.isTerminal = false :=
    ⟨next, hnext, (beq_iff_eq.mp hselected).symm, by rw [hqueued]; rfl⟩
  cases Fleet.effect_of_step hstep with
  | insert new hfresh => exact .inserted new hfresh rfl
  | claim workerId locked next hnext hqueued =>
    exact .reopened _ _ rfl (fun r => rfl) (fun r => rfl) (claimed hnext hqueued)
  | claimLost workerId locked next hnext hqueued =>
    exact .reopened _ _ rfl (fun r => rfl) (fun r => rfl) (claimed hnext hqueued)
  | claimFailed => exact .same rfl
  | publishProcessing i ok task htask hphase => exact .same rfl
  | execute i result task htask hphase => exact .same rfl
  | executeFailed i task htask hphase => exact .same rfl
  | writeResult i reply hcommitted task htask result hphase =>
    refine .written i task _ _ htask (Or.inr ⟨result, hphase⟩) rfl (fun r => rfl) rfl rfl rfl ?_
    by_cases hreply : reply = .acknowledged
    · exact Or.inr ⟨result.status, if_pos hreply⟩
    · exact Or.inl (if_neg hreply)
  | writeResultFailed i task htask result hphase => exact .same rfl
  | writeSandboxFailure i elapsed reply hcommitted task htask hphase =>
    exact .written i task _ _ htask (Or.inl hphase) rfl (fun r => rfl) rfl rfl rfl (Or.inr ⟨_, rfl⟩)
  | writeSandboxFailureFailed i elapsed task htask hphase => exact .same rfl
  | publishFinished i ok task htask status hphase => exact .same rfl
  | crash i task htask => exact .same rfl
  | sweep =>
    refine .reopened _ _ rfl (fun r => rfl) (fun r => rfl) fun r hr hstale => ⟨r, hr, rfl, ?_⟩
    rw [Row.status_of_stale hstale]
    rfl
  | tick elapsed hnonneg => exact .same rfl

/-- The tokens of the table stay unique. -/
theorem Fleet.nodup_tokens_of_step {s t : Fleet} {a : FleetAction} (hstep : s.step a = some t)
    (hunique : (s.rows.map Row.token).Nodup) : (t.rows.map Row.token).Nodup := by
  cases Fleet.rowsEffect_of_step hstep with
  | same hrows =>
    rw [hrows]
    exact hunique
  | inserted new hfresh hrows =>
    rw [hrows]
    exact nodup_tokens_insert hunique hfresh
  | reopened condition f hrows htoken hopen hselected =>
    rw [hrows, map_key_updateWhere htoken]
    exact hunique
  | written i task new f htask hphase hrows htoken htasks hjob hwrote hnext =>
    rw [hrows, map_key_updateWhere htoken]
    exact hunique

/-- No step takes a row off the table. -/
theorem Fleet.mem_tokens_of_step {s t : Fleet} {a : FleetAction} (hstep : s.step a = some t) {token : Token}
    (h : token ∈ s.rows.map Row.token) : token ∈ t.rows.map Row.token := by
  cases Fleet.rowsEffect_of_step hstep with
  | same hrows =>
    rw [hrows]
    exact h
  | inserted new hfresh hrows =>
    rw [hrows, List.map_append]
    exact List.mem_append_left _ h
  | reopened condition f hrows htoken hopen hselected =>
    rw [hrows, map_key_updateWhere htoken]
    exact h
  | written i task new f htask hphase hrows htoken htasks hjob hwrote hnext =>
    rw [hrows, map_key_updateWhere htoken]
    exact h

/-- A submission of an empty program. -/
def NewSubmission.blank (token : Token) : NewSubmission where
  token := token
  languageId := 71
  sourceCode := []
  stdin := none
  limits := .default
  callbackUrl := none
  idempotencyKey := none
  idempotencyHash := none
  batchId := none

/-- The result of a program that printed a line and exited with 0. -/
def acceptedResult : SandboxResult where
  status := .accepted
  stdout := [111, 107, 10]
  stderr := []
  compileOutput := none
  exitCode := some 0
  signal := none
  cpuTime := 0
  wallTime := 0
  compileTime := 0
  memoryKb := 0
  compiledBinary := none

/-- A submission is inserted, claimed and executed up to the write of its result. -/
def executeFirst (token : Token) : List FleetAction :=
  [.insert (.blank token), .claim "w" [] token .acknowledged, .publishProcessing 0 true,
    .execute 0 (some acceptedResult)]

/-- The row of a blank submission once that result is written. -/
def acceptedRow (token : Token) : Row :=
  { ((NewSubmission.blank token).row 0).claim 0 "w" with
    status := .accepted
    stdout := some [111, 107, 10]
    stderr := some []
    exitCode := some 0
    cpuTime := some (asSecs 0)
    wallTime := some (asSecs 0)
    memoryKb := some 0
    finishedAt := some 0 }

/-- The state in which the result is written, with the task in the given phase. -/
def acceptedFleet (token : Token) (phase : TaskPhase) : Fleet :=
  ⟨0, [acceptedRow token], [⟨"w", ((NewSubmission.blank token).row 0).claimedJob, phase, true, false⟩]⟩

end ZeroCode.Worker
