import ZeroCode.Worker.Request

/-!
# Where a verdict comes from

A submission may be executed several times: its claim goes stale, its worker crashes or
writes late, a reply is lost. Whichever task wrote last, a judgement in a row is the result
of an execution of just what was inserted with the token of the row: its program, its
input, its limits. A task keeps the job it claimed, a row keeps its request until it is
finished, and a finished row is never claimed again, so no task ever runs a program whose
payload was scrubbed. All of this rests on tokens that are inserted only once.
-/

namespace ZeroCode.Worker

open ZeroCode.Api ZeroCode.Core ZeroCode.Foundation ZeroCode.Sandbox

/-- The system with all submissions that were ever inserted. -/
structure Logged where
  fleet : Fleet
  inserted : List NewSubmission
  deriving DecidableEq, Repr

/-- Nothing was inserted yet. -/
def Logged.init : Logged := ⟨Fleet.init, []⟩

/-- Remember an insert. -/
def recordInsert (inserted : List NewSubmission) : StoreAction → List NewSubmission
  | .fleet (.insert new) => new :: inserted
  | _ => inserted

/-- One step of the system, with its inserts remembered. -/
def Logged.step (s : Logged) (a : StoreAction) : Option Logged :=
  (storeStep s.fleet a).map fun fleet => ⟨fleet, recordInsert s.inserted a⟩

/-- The job of a submission. -/
def NewSubmission.job (new : NewSubmission) : ClaimedJob := (new.row 0).claimedJob

/-- The language, the source and the input of a job. -/
def ClaimedJob.program (job : ClaimedJob) : ℕ × Bytes × Bytes := (job.languageId, job.sourceCode, job.stdin)

/-- No token is inserted twice, and what a task returns is what some backend may return for its job. -/
def Genuine (executes : ClaimedJob → SandboxResult → Prop) (s : Logged) : StoreAction → Prop
  | .fleet (.insert new) => new.token ∉ s.inserted.map NewSubmission.token
  | .fleet (.execute i (some result)) =>
    Returned result ∧ ∀ task, s.fleet.task i = some task → executes task.job result
  | _ => True

/-- The row shows the result, or what a scrub has left of it. -/
structure Row.Shows (result : SandboxResult) (r : Row) : Prop where
  status : (r.status, r.statusDetail) = encodeStatus result.status
  ending : r.exitCode = result.exitCode ∧ r.signal = encodeSignal result.signal
  usage : r.cpuTime = some (asSecs result.cpuTime) ∧ r.wallTime = some (asSecs result.wallTime) ∧
    r.memoryKb = some result.memoryKb
  outputs : (r.stdout = some result.stdout ∧ r.stderr = some result.stderr ∧ r.compileOutput = result.compileOutput) ∨
    (r.stdout = none ∧ r.stderr = none ∧ r.compileOutput = none)

section Origin

variable (executes : ClaimedJob → SandboxResult → Prop)

/-- The row was inserted as this submission, and what it shows was executed for it. -/
structure Row.From (new : NewSubmission) (r : Row) : Prop where
  terms : r.terms = (new.row 0).terms
  kept : r.status.isTerminal = false → r.request = (new.row 0).request
  judged : r.status.isTerminal = true → r.status ≠ .sandboxFailure → ∃ result, executes new.job result ∧ r.Shows result

/-- The task has claimed this submission, and what it has in its hands was executed for it. -/
structure Task.From (new : NewSubmission) (task : Task) : Prop where
  job : task.job = new.job
  writing : ∀ result, task.phase = .writing result → executes new.job result
  publishing : ∀ status, task.phase = .publishing status →
    status = .sandboxFailure ∨ ∃ result, executes new.job result ∧ result.status = status

/-- Every row and every task comes from a submission that was inserted. -/
structure OriginInv (s : Logged) : Prop where
  fleet : FleetInv s.fleet
  tokens : (s.inserted.map NewSubmission.token).Nodup
  rows : ∀ r ∈ s.fleet.rows, ∃ new ∈ s.inserted, r.From executes new
  tasks : ∀ task ∈ s.fleet.tasks, ∃ new ∈ s.inserted, task.From executes new

variable {executes} {new : NewSubmission}

/-- The token of a row is that of its submission. -/
theorem Row.From.token {r : Row} (h : r.From executes new) : r.token = new.token := congrArg RowTerms.token h.terms

/-- The token of a task is that of its submission. -/
theorem Task.From.token {task : Task} (h : task.From executes new) : task.job.token = new.token :=
  congrArg ClaimedJob.token h.job

/-- Rows with the same request have the same job. -/
theorem claimedJob_of_request {r r' : Row} (h : r.request = r'.request) : r.claimedJob = r'.claimedJob := by
  simp only [Row.request, Row.terms, Prod.mk.injEq, RowTerms.mk.injEq] at h
  simp only [Row.claimedJob, h]

/-- A new row. -/
theorem Row.from_row (now : ℚ) : (new.row now).From executes new := ⟨rfl, fun _ => rfl, fun hterminal => nomatch hterminal⟩

/-- A row with the columns of its request left alone, and a status that is not terminal. -/
theorem Row.From.reopen {r r' : Row} (h : r.From executes new) (hopen : r.status.isTerminal = false)
    (hrequest : r'.request = r.request) (hopen' : r'.status.isTerminal = false) : r'.From executes new where
  terms := (congrArg Prod.fst hrequest).trans h.terms
  kept _ := hrequest.trans (h.kept hopen)
  judged hterminal := by
    rw [hopen'] at hterminal
    cases hterminal

/-- A row with the result of an execution of its submission. -/
theorem Row.From.written {r r' : Row} {result : SandboxResult} (h : r.From executes new) (hterms : r'.terms = r.terms)
    (hterminal : r'.status.isTerminal = true) (hexecutes : executes new.job result) (hshows : r'.Shows result) :
    r'.From executes new where
  terms := hterms.trans h.terms
  kept hopen := by
    rw [hterminal] at hopen
    cases hopen
  judged _ _ := ⟨result, hexecutes, hshows⟩

/-- A row with a failure of the sandbox. -/
theorem Row.From.failed {r r' : Row} (h : r.From executes new) (hterms : r'.terms = r.terms)
    (hfailed : r'.status = .sandboxFailure) : r'.From executes new where
  terms := hterms.trans h.terms
  kept hopen := by
    rw [hfailed] at hopen
    cases hopen
  judged _ hother := absurd hfailed hother

/-- A scrub leaves of a result what is no payload. -/
theorem Row.Shows.scrub {result : SandboxResult} {r : Row} (h : r.Shows result) : r.scrub.Shows result :=
  ⟨h.status, h.ending, h.usage, .inr ⟨rfl, rfl, rfl⟩⟩

/-- A finished row that is scrubbed. -/
theorem Row.From.scrub {r : Row} (h : r.From executes new) (hterminal : r.status.isTerminal = true) :
    r.scrub.From executes new where
  terms := h.terms
  kept hopen := by
    rw [show r.scrub.status = r.status from rfl, hterminal] at hopen
    cases hopen
  judged _ hother := by
    obtain ⟨result, hexecutes, hshows⟩ := h.judged hterminal hother
    exact ⟨result, hexecutes, hshows.scrub⟩

/-- A task that has claimed a row has the job of the submission of the row. -/
theorem Task.from_claim {r : Row} (h : r.From executes new) (hopen : r.status.isTerminal = false)
    (workerId : String) : Task.From executes new ⟨workerId, r.claimedJob, .claimed, false, false⟩ :=
  ⟨claimedJob_of_request (h.kept hopen), (fun _ hphase => nomatch hphase), (fun _ hphase => nomatch hphase)⟩

/-- A task that goes on with its job. -/
theorem Task.From.move {task task' : Task} (h : task.From executes new) (hjob : task'.job = task.job)
    (hwriting : ∀ result, task'.phase = .writing result → executes task.job result)
    (hpublishing : ∀ status, task'.phase = .publishing status →
      status = .sandboxFailure ∨ ∃ result, executes task.job result ∧ result.status = status) :
    task'.From executes new := by
  rw [h.job] at hwriting hpublishing
  exact ⟨hjob.trans h.job, hwriting, hpublishing⟩

/-- A row and a task with one token come from one submission. -/
theorem OriginInv.same {s : Logged} (h : OriginInv executes s) {r : Row} {task : Task} {new' : NewSubmission}
    (hr : r.From executes new) (htask : task.From executes new') (hnew : new ∈ s.inserted) (hnew' : new' ∈ s.inserted)
    (htoken : r.token = task.job.token) : new = new' :=
  eq_of_key_eq h.tokens hnew hnew' (hr.token.symm.trans (htoken.trans htask.token))

/-- A claim takes an open row and leaves it open. -/
theorem OriginInv.claim {s : Logged} (h : OriginInv executes s) {next : Row} (hnext : next ∈ s.fleet.rows)
    (hqueued : next.status = .queued) (workerId : String) (r : Row)
    (hr : r ∈ updateWhere (fun r => r.token == next.token) (Row.claim s.fleet.now workerId) s.fleet.rows) :
    ∃ new ∈ s.inserted, r.From executes new := by
  refine forall_mem_updateWhere h.rows (fun old hold hselected => ?_) r hr
  obtain rfl := eq_of_key_eq h.fleet.tokens hold hnext (beq_iff_eq.mp hselected)
  obtain ⟨new, hnew, hfrom⟩ := h.rows old hold
  exact ⟨new, hnew, hfrom.reopen (by rw [hqueued]; rfl) rfl rfl⟩

/-- Every step of the workers and the API leaves rows of what was inserted. -/
theorem OriginInv.rows_of_step {s : Logged} {t : Fleet} {a : FleetAction} (h : OriginInv executes s)
    (hstep : s.fleet.step a = some t) (r : Row) (hr : r ∈ t.rows) :
    ∃ new ∈ recordInsert s.inserted (.fleet a), r.From executes new := by
  cases Fleet.effect_of_step hstep with
  | insert new hfresh =>
    rcases List.mem_append.mp hr with hold | hnew
    · obtain ⟨old, hmem, hfrom⟩ := h.rows r hold
      exact ⟨old, List.mem_cons_of_mem _ hmem, hfrom⟩
    · rw [List.mem_singleton.mp hnew]
      exact ⟨new, List.mem_cons_self, Row.from_row s.fleet.now⟩
  | claim workerId locked next hnext hqueued => exact h.claim hnext hqueued workerId r hr
  | claimLost workerId locked next hnext hqueued => exact h.claim hnext hqueued workerId r hr
  | claimFailed => exact h.rows r hr
  | publishProcessing i ok task htask hphase => exact h.rows r hr
  | execute i result task htask hphase => exact h.rows r hr
  | executeFailed i task htask hphase => exact h.rows r hr
  | writeResult i reply hcommitted task htask result hphase =>
    refine forall_mem_updateWhere h.rows (fun old hold hselected => ?_) r hr
    obtain ⟨new, hnew, hfrom⟩ := h.rows old hold
    obtain ⟨new', hnew', htaskFrom⟩ := h.tasks task (List.mem_of_getElem? (Fleet.getElem_of_task htask).1)
    obtain rfl := h.same hfrom htaskFrom hnew hnew' (beq_iff_eq.mp hselected)
    exact ⟨new, hnew, hfrom.written rfl (h.fleet.isTerminal_of_writing htask hphase) (htaskFrom.writing result hphase)
      ⟨rfl, ⟨rfl, rfl⟩, ⟨rfl, rfl, rfl⟩, .inl ⟨rfl, rfl, rfl⟩⟩⟩
  | writeResultFailed i task htask result hphase => exact h.rows r hr
  | writeSandboxFailure i elapsed reply hcommitted task htask hphase =>
    refine forall_mem_updateWhere h.rows (fun old hold _ => ?_) r hr
    obtain ⟨new, hnew, hfrom⟩ := h.rows old hold
    exact ⟨new, hnew, hfrom.failed rfl rfl⟩
  | writeSandboxFailureFailed i elapsed task htask hphase => exact h.rows r hr
  | publishFinished i ok task htask status hphase => exact h.rows r hr
  | crash i task htask => exact h.rows r hr
  | sweep =>
    refine forall_mem_updateWhere h.rows (fun old hold hstale => ?_) r hr
    obtain ⟨new, hnew, hfrom⟩ := h.rows old hold
    exact ⟨new, hnew, hfrom.reopen (by rw [Row.status_of_stale hstale]; rfl) rfl rfl⟩
  | tick elapsed hnonneg => exact h.rows r hr

/-- Every step of the workers and the API leaves tasks of what was inserted. -/
theorem OriginInv.tasks_of_step {s : Logged} {t : Fleet} {a : FleetAction} (h : OriginInv executes s)
    (hgenuine : Genuine executes s (.fleet a)) (hstep : s.fleet.step a = some t) (task : Task) (htask : task ∈ t.tasks) :
    ∃ new ∈ recordInsert s.inserted (.fleet a), task.From executes new := by
  -- a task that moves on keeps its job
  have moved {i : ℕ} {old new : Task} (hold : s.fleet.task i = some old)
      (hmem : task ∈ (s.fleet.setTask i new).tasks) (hjob : new.job = old.job)
      (hwriting : ∀ result, new.phase = .writing result → executes old.job result)
      (hpublishing : ∀ status, new.phase = .publishing status →
        status = .sandboxFailure ∨ ∃ result, executes old.job result ∧ result.status = status) :
      ∃ submission ∈ s.inserted, task.From executes submission := by
    rcases mem_tasks_setTask hmem with rfl | hkept
    · obtain ⟨submission, hsubmission, hfrom⟩ := h.tasks old (List.mem_of_getElem? (Fleet.getElem_of_task hold).1)
      exact ⟨submission, hsubmission, hfrom.move hjob hwriting hpublishing⟩
    · exact h.tasks task hkept
  -- what a task has in its hands was executed for its job
  have inHands {i : ℕ} {old : Task} (hold : s.fleet.task i = some old) {result : SandboxResult}
      (hphase : old.phase = .writing result) : executes old.job result := by
    obtain ⟨submission, _, hfrom⟩ := h.tasks old (List.mem_of_getElem? (Fleet.getElem_of_task hold).1)
    rw [hfrom.job]
    exact hfrom.writing result hphase
  cases Fleet.effect_of_step hstep with
  | insert new hfresh =>
    obtain ⟨old, hmem, hfrom⟩ := h.tasks task htask
    exact ⟨old, List.mem_cons_of_mem _ hmem, hfrom⟩
  | claim workerId locked next hnext hqueued =>
    rcases List.mem_append.mp htask with hold | hnew
    · exact h.tasks task hold
    · obtain ⟨submission, hsubmission, hfrom⟩ := h.rows next hnext
      rw [List.mem_singleton.mp hnew]
      exact ⟨submission, hsubmission, Task.from_claim hfrom (by rw [hqueued]; rfl) workerId⟩
  | claimLost workerId locked next hnext hqueued => exact h.tasks task htask
  | claimFailed => exact h.tasks task htask
  | publishProcessing i ok old hold hphase => exact moved hold htask rfl (by simp) (by simp)
  | execute i result old hold hphase =>
    refine moved hold htask rfl (fun result' hphase' => ?_) (by simp)
    obtain rfl := TaskPhase.writing.inj hphase'
    exact hgenuine.2 old hold
  | executeFailed i old hold hphase => exact moved hold htask rfl (by simp) (by simp)
  | writeResult i reply hcommitted old hold result hphase =>
    refine moved hold htask rfl (fun result' hphase' => ?_) (fun status hphase' => .inr ⟨result, inHands hold hphase, ?_⟩)
    · split at hphase' <;> cases hphase'
    · split at hphase'
      · exact TaskPhase.publishing.inj hphase'
      · cases hphase'
  | writeResultFailed i old hold result hphase => exact moved hold htask rfl (by simp) (by simp)
  | writeSandboxFailure i elapsed reply hcommitted old hold hphase =>
    exact moved hold htask rfl (by simp) (fun status hphase' => .inl (TaskPhase.publishing.inj hphase').symm)
  | writeSandboxFailureFailed i elapsed old hold hphase =>
    exact moved hold htask rfl (by simp) (fun status hphase' => .inl (TaskPhase.publishing.inj hphase').symm)
  | publishFinished i ok old hold status hphase => exact moved hold htask rfl (by simp) (by simp)
  | crash i old hold =>
    rcases mem_tasks_setTask htask with rfl | hkept
    · obtain ⟨submission, hsubmission, hfrom⟩ := h.tasks old (List.mem_of_getElem? (Fleet.getElem_of_task hold).1)
      exact ⟨submission, hsubmission, hfrom.job, hfrom.writing, hfrom.publishing⟩
    · exact h.tasks task hkept
  | sweep => exact h.tasks task htask
  | tick elapsed hnonneg => exact h.tasks task htask

/-- The tokens of what was inserted stay unique. -/
theorem nodup_recordInsert {s : Logged} {a : StoreAction} (h : (s.inserted.map NewSubmission.token).Nodup)
    (hgenuine : Genuine executes s a) : ((recordInsert s.inserted a).map NewSubmission.token).Nodup := by
  unfold recordInsert
  split
  · exact List.nodup_cons.mpr ⟨hgenuine, h⟩
  · exact h

/-- What is genuine is judged. -/
theorem judged_of_genuine {s : Logged} {a : FleetAction} (hgenuine : Genuine executes s (.fleet a)) : Judged a := by
  cases a with
  | execute i outcome =>
    cases outcome with
    | none => trivial
    | some result => exact hgenuine.1
  | insert | claim | publishProcessing | writeResult | writeSandboxFailure | publishFinished | crash | sweep | tick =>
    trivial

/-- Every step keeps the invariant. -/
theorem OriginInv.of_step {s t : Logged} {a : StoreAction} (h : OriginInv executes s) (hgenuine : Genuine executes s a)
    (hstep : s.step a = some t) : OriginInv executes t := by
  obtain ⟨fleet, hfleet, rfl⟩ := Option.map_eq_some_iff.mp hstep
  have hinv := fleetInv_of_storeStep h.fleet (fun b hb => by subst hb; exact judged_of_genuine hgenuine) hfleet
  cases a with
  | fleet a =>
    exact ⟨hinv, nodup_recordInsert h.tokens hgenuine, h.rows_of_step hfleet, h.tasks_of_step hgenuine hfleet⟩
  | scrubPayloads config =>
    cases hfleet
    refine ⟨hinv, h.tokens, forall_mem_updateWhere h.rows fun r hr hselected => ?_, h.tasks⟩
    obtain ⟨new, hnew, hfrom⟩ := h.rows r hr
    rw [Bool.and_eq_true] at hselected
    exact ⟨new, hnew, hfrom.scrub (isTerminal_of_finishedBefore (h.fleet.rows r hr) hselected.1)⟩
  | expireOldRows config =>
    cases hfleet
    exact ⟨hinv, h.tokens, fun r hr => h.rows r (List.mem_of_mem_filter hr), h.tasks⟩

/-- Nothing is in the empty table. -/
theorem OriginInv.init : OriginInv executes Logged.init where
  fleet := FleetInv.init
  tokens := List.nodup_nil
  rows r hr := by cases hr
  tasks task htask := by cases htask

end Origin

/-- Across every interleaving of the workers, with stale claims, crashes, lost replies and scrubs, a judgement in the
table and a final status that is broadcast are those of an execution of just what was inserted with that token. -/
theorem executed_as_inserted (executes : ClaimedJob → SandboxResult → Prop) {s : Logged}
    (reached : Reaches Logged.step (Genuine executes) Logged.init s) :
    (∀ r ∈ s.fleet.rows, r.status.isTerminal = true → r.status ≠ .sandboxFailure →
      ∃ new ∈ s.inserted, new.token = r.token ∧ ∃ result, executes new.job result ∧ r.Shows result) ∧
      ∀ a token status, s.fleet.published a = some (token, .finished status) → status ≠ .sandboxFailure →
        ∃ new ∈ s.inserted, new.token = token ∧ ∃ result, executes new.job result ∧ result.status = status := by
  have h : OriginInv executes s :=
    reached.invariant (OriginInv executes) OriginInv.init fun s a t hinv hgenuine hstep => hinv.of_step hgenuine hstep
  constructor
  · intro r hr hterminal hother
    obtain ⟨new, hnew, hfrom⟩ := h.rows r hr
    exact ⟨new, hnew, hfrom.token.symm, hfrom.judged hterminal hother⟩
  · intro a token status hpublished hother
    unfold Fleet.published at hpublished
    split at hpublished
    · obtain ⟨task, _, heq⟩ := Option.map_eq_some_iff.mp hpublished
      cases heq
    · split at hpublished
      · rename_i task htask
        split at hpublished
        · rename_i status' hphase
          cases hpublished
          obtain ⟨new, hnew, hfrom⟩ := h.tasks task (List.mem_of_getElem? (Fleet.getElem_of_task htask).1)
          exact ⟨new, hnew, hfrom.token.symm, (hfrom.publishing status hphase).resolve_left hother⟩
        · cases hpublished
      · cases hpublished
    · cases hpublished

/-- The submission of that request. -/
def pythonSubmission : NewSubmission := pythonRequest.newSubmission .default 7 none []

/-- The first claim goes stale, its worker writes late and loses the reply, so that it writes a failure, and the second
worker writes after it. -/
def twiceExecuted : List StoreAction :=
  [.fleet (.insert pythonSubmission), .fleet (.claim "w" [] 7 .acknowledged), .fleet (.publishProcessing 0 true),
    .fleet (.tick 4000), .fleet .sweep, .fleet (.claim "v" [] 7 .acknowledged), .fleet (.publishProcessing 1 true),
    .fleet (.execute 0 (some acceptedResult)), .fleet (.writeResult 0 .lost),
    .fleet (.writeSandboxFailure 0 1 .acknowledged), .fleet (.execute 1 (some acceptedResult)),
    .fleet (.writeResult 1 .acknowledged)]

/-- Every job is that submission, and it is accepted. -/
def acceptsPython (s : Logged) : StoreAction → Bool
  | .fleet (.insert new) => decide (new.token ∉ s.inserted.map NewSubmission.token)
  | .fleet (.execute i (some result)) =>
    result == acceptedResult && (s.fleet.task i).all fun task => task.job == pythonSubmission.job
  | _ => true

/-- The system after that run. -/
def twiceExecutedLogged : Logged :=
  lastState (checkedStep Logged.step fun s a => acceptsPython s a = true) Logged.init twiceExecuted

/-- The row of that system shows the result of an execution of what was inserted. -/
theorem executed_as_inserted_twiceExecuted :
    (twiceExecutedLogged.fleet.rows.map Row.status) = [.accepted] ∧
      ∀ r ∈ twiceExecutedLogged.fleet.rows, r.status.isTerminal = true → r.status ≠ .sandboxFailure →
        ∃ new ∈ twiceExecutedLogged.inserted, new.token = r.token ∧
          ∃ result, (new.job = pythonSubmission.job ∧ result = acceptedResult) ∧ r.Shows result := by
  refine ⟨by decide +kernel,
    (executed_as_inserted (fun job result => job = pythonSubmission.job ∧ result = acceptedResult) ?_).1⟩
  have reached : Reaches Logged.step (fun s a => acceptsPython s a = true) Logged.init twiceExecutedLogged :=
    .of_runActions twiceExecuted (runActions_eq_lastState (by decide +kernel))
  refine reached.mono fun s a h => ?_
  cases a with
  | fleet a =>
    cases a with
    | insert new => simpa [acceptsPython, Genuine] using h
    | execute i outcome =>
      cases outcome with
      | none => trivial
      | some result =>
        simp only [acceptsPython, Bool.and_eq_true, beq_iff_eq, Option.all_eq_true] at h
        exact ⟨h.1 ▸ .naive (.ran true (some 0)) rfl, fun task htask => ⟨h.2 task htask, h.1⟩⟩
    | claim | publishProcessing | writeResult | writeSandboxFailure | publishFinished | crash | sweep | tick => trivial
  | scrubPayloads config => trivial
  | expireOldRows config => trivial

end ZeroCode.Worker
