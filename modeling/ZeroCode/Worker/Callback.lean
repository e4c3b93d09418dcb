import ZeroCode.Worker.ClaimAge
import ZeroCode.Worker.Retention
import ZeroCode.Worker.Webhook

/-!
# Which submissions are called back

A task posts its result once it has written the result, heard that it is written, and
broadcast the end. What the posting came to is written to the row in a statement of its
own. A submission that ends on the path of a failure has a terminal row all the same, and
nobody posts anything for it.
-/

namespace ZeroCode.Worker

open ZeroCode.Api ZeroCode.Core ZeroCode.Foundation ZeroCode.Sandbox

/-- What a worker knows of languages and callbacks. -/
structure CallbackEnv where
  languages : List LanguageSpec
  webhook : Webhook

/-- What a task has to write: nothing if the language is unknown or the sandbox failed for good. -/
def processOutcome (env : CallbackEnv) (job : ClaimedJob) (attempts : ℕ → Attempt) : Option SandboxResult :=
  match env.languages.find? fun spec => spec.id == job.languageId with
  | none => none
  | some _ => (executeWithRetry attempts 1).1.toOption

/-- How far a task is with its callback: the end is to be broadcast first, the delivery is running, or its outcome
is to be written. -/
inductive HookPhase
  | idle
  | owed (result : SandboxResult)
  | posting (url : String) (result : SandboxResult)
  | recording (status : CallbackStatus)
  deriving DecidableEq, Repr

/-- What a task did: a statement of it left its row with a terminal status, it invoked the delivery, or it wrote the
outcome to its row. -/
inductive CallbackEvent
  | terminal (status : Status)
  | invoked (url : String) (result : SandboxResult)
  | recorded (status : CallbackStatus)
  deriving DecidableEq, Repr

/-- The callback of a task. The history is read by no step. -/
structure Hook where
  phase : HookPhase
  history : List CallbackEvent
  deriving DecidableEq, Repr

/-- The table with its `callback_status` column, and the callbacks of all tasks. -/
structure Calling where
  store : Fleet
  callbackStatus : Token → Option CallbackStatus
  hooks : ℕ → Hook

/-- A step of the fleet or the retention, the execution of a job, the end of a delivery, or the write of its
outcome. -/
inductive CallingAction
  | store (a : StoreAction)
  | execute (i : ℕ) (attempts : ℕ → Attempt)
  | settle (i : ℕ) (timestamp : ℤ) (respond : ℕ → Option ℕ)
  | record (i : ℕ) (reply : Reply)

/-- No row, no task and no callback. -/
def Calling.init : Calling := ⟨Fleet.init, fun _ => none, fun _ => ⟨.idle, []⟩⟩

/-- The task whose step it is. -/
def FleetAction.taskIndex : FleetAction → Option ℕ
  | .publishProcessing i _ | .execute i _ | .writeResult i _ | .writeSandboxFailure i _ _ | .publishFinished i _
  | .crash i => some i
  | .insert _ | .claim _ _ _ _ | .sweep | .tick _ => none

/-- The row of the task is in the table. -/
def Task.rowPresent (task : Task) (rows : List Row) : Bool := (rows.map Row.token).contains task.job.token

/-- The terminal status in which a statement of the task leaves its row. -/
def Task.marks (task : Task) (rows : List Row) : FleetAction → List CallbackEvent
  | .writeResult _ reply =>
    match task.phase with
    | .writing result =>
      if reply.committed && task.rowPresent rows && result.status.isTerminal then [.terminal result.status] else []
    | _ => []
  | .writeSandboxFailure _ _ reply =>
    if reply.committed && task.rowPresent rows then [.terminal .sandboxFailure] else []
  | _ => []

/-- The callback of a task behind one of its statements. Only the path of a result leads to a delivery. -/
def Hook.after (h : Hook) (task : Task) (rows : List Row) (a : FleetAction) : Hook :=
  match a, task.phase, h.phase with
  | .writeResult _ .acknowledged, .writing result, _ => ⟨.owed result, h.history ++ task.marks rows a⟩
  | .publishFinished _ _, _, .owed result =>
    match task.job.callbackUrl with
    | some url => ⟨.posting url result, h.history ++ [.invoked url result]⟩
    | none => { h with phase := .idle }
  | _, _, _ => { h with history := h.history ++ task.marks rows a }

/-- The callbacks behind a step of the fleet. -/
def Calling.hooksAfter (s : Calling) (a : FleetAction) : ℕ → Hook :=
  match a.taskIndex with
  | none => s.hooks
  | some i =>
    match s.store.task i with
    | none => s.hooks
    | some task => Function.update s.hooks i ((s.hooks i).after task s.store.rows a)

/-- The column behind a step of the fleet: a new row has no callback status. -/
def Calling.columnAfter (s : Calling) : FleetAction → Token → Option CallbackStatus
  | .insert new => Function.update s.callbackStatus new.token none
  | _ => s.callbackStatus

/-- Write the outcome of a delivery to the row, if the statement takes effect and the row is there. -/
def Calling.updateCallbackStatus (s : Calling) (i : ℕ) (task : Task) (status : CallbackStatus) (reply : Reply) :
    Calling :=
  if reply.committed && task.rowPresent s.store.rows then
    { s with
      callbackStatus := Function.update s.callbackStatus task.job.token (some status)
      hooks := Function.update s.hooks i ⟨.idle, (s.hooks i).history ++ [.recorded status]⟩ }
  else { s with hooks := Function.update s.hooks i ⟨.idle, (s.hooks i).history⟩ }

/-- One step of the system. -/
def Calling.step (env : CallbackEnv) (s : Calling) : CallingAction → Option Calling
  -- a job is executed by the action for it
  | .store (.fleet (.execute _ _)) => none
  | .store (.fleet a) => (s.store.step a).map fun store => ⟨store, s.columnAfter a, s.hooksAfter a⟩
  | .store (.scrubPayloads config) =>
    (storeStep s.store (.scrubPayloads config)).map fun store => { s with store := store }
  | .store (.expireOldRows config) =>
    (storeStep s.store (.expireOldRows config)).map fun store => { s with store := store }
  | .execute i attempts =>
    (s.store.task i).bind fun task =>
      (s.store.step (.execute i (processOutcome env task.job attempts))).map fun store => { s with store := store }
  | .settle i timestamp respond =>
    (s.store.task i).bind fun task =>
      match (s.hooks i).phase with
      | .posting url result =>
        let status := env.webhook.deliver timestamp respond url task.job.token result
        some { s with hooks := Function.update s.hooks i { s.hooks i with phase := .recording status } }
      | _ => none
  -- a failed statement is only logged
  | .record i reply =>
    (s.store.task i).bind fun task =>
      match (s.hooks i).phase with
      | .recording status => some (s.updateCallbackStatus i task status reply)
      | _ => none

/-- The task whose step it is. -/
def CallingAction.taskIndex : CallingAction → Option ℕ
  | .store (.fleet a) => a.taskIndex
  | .store (.scrubPayloads _) | .store (.expireOldRows _) => none
  | .execute i _ | .settle i _ _ | .record i _ => some i

/-- What a step makes of a task and its callback. -/
inductive Calling.Move (s : Calling) (i : ℕ) : CallingAction → Option Task → Hook → Prop
  | kept (a : CallingAction) (hother : a.taskIndex ≠ some i) : Move s i a s.store.tasks[i]? (s.hooks i)
  | claimed (a : CallingAction) (workerId : String) (job : ClaimedJob) (hother : a.taskIndex ≠ some i)
    (hnew : s.store.tasks[i]? = none) : Move s i a (some ⟨workerId, job, .claimed, false, false⟩) (s.hooks i)
  | begun (ok : Bool) (task : Task) (htask : s.store.task i = some task) (hphase : task.phase = .claimed) :
    Move s i (.store (.fleet (.publishProcessing i ok))) (some { task with phase := .executing }) (s.hooks i)
  | executed (attempts : ℕ → Attempt) (result : SandboxResult) (task : Task) (htask : s.store.task i = some task)
    (hphase : task.phase = .executing) :
    Move s i (.execute i attempts) (some { task with phase := .writing result }) (s.hooks i)
  | executeFailed (attempts : ℕ → Attempt) (task : Task) (htask : s.store.task i = some task)
    (hphase : task.phase = .executing) : Move s i (.execute i attempts) (some { task with phase := .failing }) (s.hooks i)
  | written (wrote : Bool) (result : SandboxResult) (task : Task) (htask : s.store.task i = some task)
    (hphase : task.phase = .writing result) :
    Move s i (.store (.fleet (.writeResult i .acknowledged)))
      (some { task with phase := .publishing result.status, wrote := wrote })
      ⟨.owed result, (s.hooks i).history ++ task.marks s.store.rows (.writeResult i .acknowledged)⟩
  | unwritten (reply : Reply) (hreply : reply ≠ .acknowledged) (wrote : Bool) (result : SandboxResult) (task : Task)
    (htask : s.store.task i = some task) (hphase : task.phase = .writing result) :
    Move s i (.store (.fleet (.writeResult i reply))) (some { task with phase := .failing, wrote := wrote })
      ⟨(s.hooks i).phase, (s.hooks i).history ++ task.marks s.store.rows (.writeResult i reply)⟩
  | failed (elapsed : ℚ) (reply : Reply) (wrote : Bool) (task : Task) (htask : s.store.task i = some task)
    (hphase : task.phase = .failing) :
    Move s i (.store (.fleet (.writeSandboxFailure i elapsed reply)))
      (some { task with phase := .publishing .sandboxFailure, wrote := wrote })
      ⟨(s.hooks i).phase, (s.hooks i).history ++ task.marks s.store.rows (.writeSandboxFailure i elapsed reply)⟩
  | invoked (ok : Bool) (status : Status) (result : SandboxResult) (url : String) (task : Task)
    (htask : s.store.task i = some task) (hphase : task.phase = .publishing status)
    (howed : (s.hooks i).phase = .owed result) (hurl : task.job.callbackUrl = some url) :
    Move s i (.store (.fleet (.publishFinished i ok))) (some { task with phase := .done })
      ⟨.posting url result, (s.hooks i).history ++ [.invoked url result]⟩
  | uncalled (ok : Bool) (status : Status) (result : SandboxResult) (task : Task) (htask : s.store.task i = some task)
    (hphase : task.phase = .publishing status) (howed : (s.hooks i).phase = .owed result)
    (hurl : task.job.callbackUrl = none) :
    Move s i (.store (.fleet (.publishFinished i ok))) (some { task with phase := .done })
      ⟨.idle, (s.hooks i).history⟩
  | finished (ok : Bool) (status : Status) (task : Task) (htask : s.store.task i = some task)
    (hphase : task.phase = .publishing status) (howed : ∀ result, (s.hooks i).phase ≠ .owed result) :
    Move s i (.store (.fleet (.publishFinished i ok))) (some { task with phase := .done }) (s.hooks i)
  | crashed (task : Task) (htask : s.store.task i = some task) :
    Move s i (.store (.fleet (.crash i))) (some { task with crashed := true }) (s.hooks i)
  | settled (timestamp : ℤ) (respond : ℕ → Option ℕ) (url : String) (result : SandboxResult) (status : CallbackStatus)
    (task : Task) (htask : s.store.task i = some task) (hposting : (s.hooks i).phase = .posting url result) :
    Move s i (.settle i timestamp respond) (some task) ⟨.recording status, (s.hooks i).history⟩
  | recorded (reply : Reply) (status : CallbackStatus) (task : Task) (htask : s.store.task i = some task)
    (hrecording : (s.hooks i).phase = .recording status)
    (heffect : (reply.committed && task.rowPresent s.store.rows) = true) :
    Move s i (.record i reply) (some task) ⟨.idle, (s.hooks i).history ++ [.recorded status]⟩
  | unrecorded (reply : Reply) (status : CallbackStatus) (task : Task) (htask : s.store.task i = some task)
    (hrecording : (s.hooks i).phase = .recording status)
    (heffect : (reply.committed && task.rowPresent s.store.rows) = false) :
    Move s i (.record i reply) (some task) ⟨.idle, (s.hooks i).history⟩

/-- A replaced task is the new one. -/
theorem Fleet.getElem_setTask_self {s : Fleet} {i : ℕ} {old new : Task} (hold : s.task i = some old) :
    (s.setTask i new).tasks[i]? = some new := by
  obtain ⟨hlt, _⟩ := List.getElem?_eq_some_iff.mp (Fleet.getElem_of_task hold).1
  exact List.getElem?_set_self hlt

/-- What is no step of a task leaves it as it is, or starts it. -/
theorem Fleet.tasks_of_step_other {s t : Fleet} {a : FleetAction} (hstep : s.step a = some t) {i : ℕ}
    (hother : a.taskIndex ≠ some i) :
    t.tasks[i]? = s.tasks[i]? ∨
      s.tasks[i]? = none ∧ ∃ workerId job, t.tasks[i]? = some ⟨workerId, job, .claimed, false, false⟩ := by
  have replaced {j : ℕ} {new : Task} (hne : some j ≠ some i) : (s.setTask j new).tasks[i]? = s.tasks[i]? :=
    List.getElem?_set_ne fun h => hne (congrArg some h)
  cases Fleet.effect_of_step hstep with
  | claim workerId locked next hnext hqueued =>
    rcases lt_trichotomy i s.tasks.length with hlt | rfl | hgt
    · exact Or.inl (List.getElem?_append_left hlt)
    · refine Or.inr ⟨List.getElem?_eq_none le_rfl, workerId, next.claimedJob, ?_⟩
      exact (List.getElem?_append_right le_rfl).trans (by rw [Nat.sub_self]; rfl)
    · left
      rw [List.getElem?_eq_none hgt.le]
      refine List.getElem?_eq_none ?_
      rw [List.length_append, List.length_singleton]
      exact hgt
  | insert | claimLost | claimFailed | sweep | tick => exact Or.inl rfl
  | publishProcessing | execute | executeFailed | writeResult | writeResultFailed | writeSandboxFailure
  | writeSandboxFailureFailed | publishFinished | crash => exact Or.inl (replaced hother)

/-- The callback of a task behind a step of its own. -/
theorem Calling.hooksAfter_self {s : Calling} {i : ℕ} {task : Task} {a : FleetAction} (hindex : a.taskIndex = some i)
    (htask : s.store.task i = some task) : s.hooksAfter a i = (s.hooks i).after task s.store.rows a := by
  simp only [Calling.hooksAfter, hindex, htask, Function.update_self]

/-- The callback of a task behind a step of somebody else. -/
theorem Calling.hooksAfter_other {s : Calling} {i : ℕ} {a : FleetAction} (hother : a.taskIndex ≠ some i) :
    s.hooksAfter a i = s.hooks i := by
  cases hindex : a.taskIndex with
  | none => simp only [Calling.hooksAfter, hindex]
  | some j =>
    cases htask : s.store.task j with
    | none => simp only [Calling.hooksAfter, hindex, htask]
    | some task =>
      have hne : i ≠ j := fun h => hother (h ▸ hindex)
      simp only [Calling.hooksAfter, hindex, htask, Function.update_of_ne hne]

/-- Behind an acknowledged write of the result the callback is owed. -/
theorem Hook.after_written {h : Hook} {task : Task} {rows : List Row} {result : SandboxResult} (i : ℕ)
    (hphase : task.phase = .writing result) :
    h.after task rows (.writeResult i .acknowledged) =
      ⟨.owed result, h.history ++ task.marks rows (.writeResult i .acknowledged)⟩ := by
  simp only [Hook.after, hphase]

/-- A statement that is neither an acknowledged write of a result nor the end of a task that owes its callback leads
nowhere. -/
theorem Hook.after_of_idle {h : Hook} {task : Task} {rows : List Row} {a : FleetAction}
    (hwrite : ∀ i, a ≠ .writeResult i .acknowledged)
    (hend : ∀ i ok result, a = .publishFinished i ok → h.phase ≠ .owed result) :
    h.after task rows a = ⟨h.phase, h.history ++ task.marks rows a⟩ := by
  unfold Hook.after
  split
  · exact absurd rfl (hwrite _)
  · rename_i howed
    exact absurd howed (hend _ _ _ rfl)
  · rfl

/-- A statement that leaves no terminal row leads nowhere either. -/
theorem Hook.after_of_quiet {h : Hook} {task : Task} {rows : List Row} {a : FleetAction}
    (hmarks : task.marks rows a = []) (hwrite : ∀ i, a ≠ .writeResult i .acknowledged)
    (hend : ∀ i ok result, a = .publishFinished i ok → h.phase ≠ .owed result) : h.after task rows a = h := by
  rw [Hook.after_of_idle hwrite hend, hmarks, List.append_nil]

/-- A step of the fleet moves every task and its callback in one of these ways. -/
theorem Calling.move_of_fleetStep {s : Calling} {store : Fleet} {a : FleetAction}
    (hexecute : ∀ i outcome, a ≠ .execute i outcome) (hstep : s.store.step a = some store) (i : ℕ) :
    s.Move i (.store (.fleet a)) store.tasks[i]? (s.hooksAfter a i) := by
  by_cases hindex : a.taskIndex = some i
  · cases Fleet.effect_of_step hstep with
    | insert | claim | claimLost | claimFailed | sweep | tick => cases hindex
    | publishProcessing j ok task htask hphase =>
      cases hindex
      rw [Calling.hooksAfter_self rfl htask, Hook.after_of_quiet rfl (fun _ h => by cases h) (fun _ _ _ h => by cases h)]
      exact Fleet.getElem_setTask_self htask ▸ .begun ok task htask hphase
    | execute | executeFailed => exact absurd rfl (hexecute _ _)
    | writeResult j reply hcommitted task htask result hphase =>
      cases hindex
      cases reply with
      | acknowledged =>
        rw [Calling.hooksAfter_self rfl htask, Hook.after_written i hphase]
        exact Fleet.getElem_setTask_self htask ▸ .written true result task htask hphase
      | lost =>
        rw [Calling.hooksAfter_self rfl htask, Hook.after_of_idle (fun _ h => by cases h) (fun _ _ _ h => by cases h)]
        exact Fleet.getElem_setTask_self htask ▸ .unwritten .lost nofun true result task htask hphase
      | failed => cases hcommitted
    | writeResultFailed j task htask result hphase =>
      cases hindex
      rw [Calling.hooksAfter_self rfl htask, Hook.after_of_idle (fun _ h => by cases h) (fun _ _ _ h => by cases h)]
      exact Fleet.getElem_setTask_self htask ▸ .unwritten .failed nofun false result task htask hphase
    | writeSandboxFailure j elapsed reply hcommitted task htask hphase =>
      cases hindex
      rw [Calling.hooksAfter_self rfl htask, Hook.after_of_idle (fun _ h => by cases h) (fun _ _ _ h => by cases h)]
      exact Fleet.getElem_setTask_self htask ▸ .failed elapsed reply true task htask hphase
    | writeSandboxFailureFailed j elapsed task htask hphase =>
      cases hindex
      rw [Calling.hooksAfter_self rfl htask, Hook.after_of_idle (fun _ h => by cases h) (fun _ _ _ h => by cases h)]
      exact Fleet.getElem_setTask_self htask ▸ .failed elapsed .failed task.wrote task htask hphase
    | publishFinished j ok task htask status hphase =>
      cases hindex
      rw [Calling.hooksAfter_self rfl htask]
      have hdone := @Fleet.getElem_setTask_self s.store i task { task with phase := .done } htask
      change s.Move i _ (s.store.setTask i { task with phase := .done }).tasks[i]? _
      rw [hdone]
      by_cases howed : ∃ result, (s.hooks i).phase = .owed result
      · obtain ⟨result, howed⟩ := howed
        cases hurl : task.job.callbackUrl with
        | some url =>
          simp only [Hook.after, howed, hurl]
          exact .invoked ok status result url task htask hphase howed hurl
        | none =>
          simp only [Hook.after, howed, hurl]
          exact .uncalled ok status result task htask hphase howed hurl
      · have hidle : ∀ result, (s.hooks i).phase ≠ .owed result := fun result h => howed ⟨result, h⟩
        rw [Hook.after_of_quiet rfl (fun _ h => by cases h) fun _ _ result _ => hidle result]
        exact .finished ok status task htask hphase hidle
    | crash j task htask =>
      cases hindex
      rw [Calling.hooksAfter_self rfl htask, Hook.after_of_quiet rfl (fun _ h => by cases h) (fun _ _ _ h => by cases h)]
      exact Fleet.getElem_setTask_self htask ▸ .crashed task htask
  · rw [Calling.hooksAfter_other hindex]
    rcases Fleet.tasks_of_step_other hstep hindex with hsame | ⟨hnew, workerId, job, hclaimed⟩
    · rw [hsame]
      exact .kept _ hindex
    · rw [hclaimed]
      exact .claimed _ workerId job hindex hnew

/-- A step of the fleet but for an execution. -/
theorem Calling.step_fleet {env : CallbackEnv} {s t : Calling} {a : FleetAction}
    (hstep : s.step env (.store (.fleet a)) = some t) :
    (∀ i outcome, a ≠ .execute i outcome) ∧
      ∃ store, s.store.step a = some store ∧ t = ⟨store, s.columnAfter a, s.hooksAfter a⟩ := by
  have hmap : (∀ i outcome, a ≠ .execute i outcome) ∧ s.step env (.store (.fleet a)) =
      (s.store.step a).map fun store => ⟨store, s.columnAfter a, s.hooksAfter a⟩ := by
    cases a with
    | execute => cases hstep
    | insert | claim | publishProcessing | writeResult | writeSandboxFailure | publishFinished | crash | sweep | tick =>
      exact ⟨fun _ _ h => (by cases h), rfl⟩
  refine ⟨hmap.1, ?_⟩
  obtain ⟨store, hstore, rfl⟩ := Option.map_eq_some_iff.mp (hmap.2 ▸ hstep)
  exact ⟨store, hstore, rfl⟩

/-- Every step moves every task and its callback in one of these ways. -/
theorem Calling.move_of_step {env : CallbackEnv} {s t : Calling} {a : CallingAction} (hstep : s.step env a = some t)
    (i : ℕ) : s.Move i a t.store.tasks[i]? (t.hooks i) := by
  cases a with
  | store a =>
    cases a with
    | fleet a =>
      obtain ⟨hexecute, store, hstore, rfl⟩ := Calling.step_fleet hstep
      exact Calling.move_of_fleetStep hexecute hstore i
    | scrubPayloads config =>
      cases hstep
      exact .kept _ nofun
    | expireOldRows config =>
      cases hstep
      exact .kept _ nofun
  | execute j attempts =>
    obtain ⟨task, htask, hmapped⟩ := Option.bind_eq_some_iff.mp hstep
    obtain ⟨store, hstore, rfl⟩ := Option.map_eq_some_iff.mp hmapped
    by_cases hij : j = i
    · subst hij
      cases houtcome : processOutcome env task.job attempts with
      | some result =>
        rw [houtcome] at hstore
        cases Fleet.effect_of_step hstore with
        | execute _ _ task' htask' hphase =>
          exact Fleet.getElem_setTask_self htask' ▸ .executed attempts result task' htask' hphase
      | none =>
        rw [houtcome] at hstore
        cases Fleet.effect_of_step hstore with
        | executeFailed _ task' htask' hphase =>
          exact Fleet.getElem_setTask_self htask' ▸ .executeFailed attempts task' htask' hphase
    · have hother : some j ≠ some i := fun h => hij (Option.some.inj h)
      rcases Fleet.tasks_of_step_other hstore hother with hsame | ⟨hnew, workerId, job, hclaimed⟩
      · rw [hsame]
        exact .kept _ hother
      · rw [hclaimed]
        exact .claimed _ workerId job hother hnew
  | settle j timestamp respond =>
    obtain ⟨task, htask, hsettled⟩ := Option.bind_eq_some_iff.mp hstep
    split at hsettled
    · rename_i url result hposting
      cases hsettled
      by_cases hij : j = i
      · subst hij
        simp only [(Fleet.getElem_of_task htask).1, Function.update_self]
        exact .settled timestamp respond url result _ task htask hposting
      · simp only [Function.update_of_ne (Ne.symm hij)]
        exact .kept _ fun h => hij (Option.some.inj h)
    · cases hsettled
  | record j reply =>
    obtain ⟨task, htask, hrecorded⟩ := Option.bind_eq_some_iff.mp hstep
    split at hrecorded
    · rename_i status hrecording
      cases hrecorded
      unfold Calling.updateCallbackStatus
      by_cases hij : j = i
      · subst hij
        split
        · rename_i heffect
          simp only [(Fleet.getElem_of_task htask).1, Function.update_self]
          exact .recorded reply status task htask hrecording heffect
        · rename_i heffect
          simp only [(Fleet.getElem_of_task htask).1, Function.update_self]
          exact .unrecorded reply status task htask hrecording (Bool.eq_false_iff.mpr heffect)
      · have hother : some j ≠ some i := fun h => hij (Option.some.inj h)
        split
        · simp only [Function.update_of_ne (Ne.symm hij)]
          exact .kept _ hother
        · simp only [Function.update_of_ne (Ne.symm hij)]
          exact .kept _ hother
    · cases hrecorded

/-- What a statement leaves is in the history behind it. -/
theorem Hook.mem_after_of_mem_marks {h : Hook} {task : Task} {rows : List Row} {a : FleetAction} {e : CallbackEvent}
    (he : e ∈ task.marks rows a) : e ∈ (h.after task rows a).history := by
  unfold Hook.after
  split
  · exact List.mem_append_right _ he
  · cases he
  · exact List.mem_append_right _ he

/-- A history only grows. -/
theorem Calling.Move.history_subset {s : Calling} {i : ℕ} {a : CallingAction} {task' : Option Task} {h' : Hook}
    (move : s.Move i a task' h') : (s.hooks i).history ⊆ h'.history := by
  cases move with
  | written | unwritten | failed | invoked | recorded => exact List.subset_append_left _ _
  | kept | claimed | begun | executed | executeFailed | uncalled | finished | crashed | settled | unrecorded =>
    exact List.Subset.refl _

/-- A task keeps its job. -/
theorem Calling.Move.job_eq {s : Calling} {i : ℕ} {a : CallingAction} {task' : Option Task} {h' : Hook} {old : Task}
    (move : s.Move i a task' h') (hold : s.store.tasks[i]? = some old) : ∃ new, task' = some new ∧ new.job = old.job := by
  have here {task next : Task} (htask : s.store.task i = some task) (hjob : next.job = task.job) :
      ∃ new, some next = some new ∧ new.job = old.job := by
    cases hold.symm.trans (Fleet.getElem_of_task htask).1
    exact ⟨next, rfl, hjob⟩
  cases move with
  | kept _ hother => exact ⟨old, hold, rfl⟩
  | claimed _ workerId job hother hnew => cases hnew.symm.trans hold
  | begun _ _ htask | executed _ _ _ htask | executeFailed _ _ htask | written _ _ _ htask
  | unwritten _ _ _ _ _ htask | failed _ _ _ _ htask | invoked _ _ _ _ _ htask | uncalled _ _ _ _ htask
  | finished _ _ _ htask | crashed _ htask | settled _ _ _ _ _ _ htask | recorded _ _ _ htask
  | unrecorded _ _ _ htask => exact here htask rfl

/-- A statement of a task left the row in its terminal status. -/
def Calling.Told (s : Calling) (r : Row) : Prop :=
  ∃ i task status, s.store.tasks[i]? = some task ∧ task.job.token = r.token ∧
    .terminal status ∈ (s.hooks i).history ∧ (encodeStatus status).1 = r.status

/-- What was told is told after the step, as long as the row keeps its status. -/
theorem Calling.Told.of_step {env : CallbackEnv} {s t : Calling} {a : CallingAction} {r r' : Row} (h : s.Told r)
    (hstep : s.step env a = some t) (htoken : r'.token = r.token) (hstatus : r'.status = r.status) : t.Told r' := by
  obtain ⟨i, task, status, htask, hjob, hmarked, hsame⟩ := h
  have move := Calling.move_of_step hstep i
  obtain ⟨new, hnew, hkept⟩ := move.job_eq htask
  exact ⟨i, new, status, hnew, by rw [hkept, hjob, htoken], move.history_subset hmarked, by rw [hsame, hstatus]⟩

/-- A write that takes effect on a row tells of it. -/
theorem Calling.told_of_marks {env : CallbackEnv} {s t : Calling} {a : FleetAction} {i : ℕ} {task : Task}
    {status : Status} {r : Row} (hstep : s.step env (.store (.fleet a)) = some t) (hindex : a.taskIndex = some i)
    (htask : s.store.task i = some task) (hmarks : .terminal status ∈ task.marks s.store.rows a)
    (htoken : task.job.token = r.token) (hstatus : (encodeStatus status).1 = r.status) : t.Told r := by
  obtain ⟨new, hnew, hkept⟩ := (Calling.move_of_step hstep i).job_eq (Fleet.getElem_of_task htask).1
  obtain ⟨_, store, _, rfl⟩ := Calling.step_fleet hstep
  refine ⟨i, new, status, hnew, by rw [hkept, htoken], ?_, hstatus⟩
  change .terminal status ∈ (s.hooksAfter a i).history
  rw [Calling.hooksAfter_self hindex htask]
  exact Hook.mem_after_of_mem_marks hmarks

/-- The row of a task is in the table when a row with its token is. -/
theorem Task.rowPresent_of_mem {task : Task} {rows : List Row} {r : Row} (hr : r ∈ rows)
    (htoken : r.token = task.job.token) : task.rowPresent rows = true :=
  List.contains_iff_mem.mpr (htoken ▸ List.mem_map_of_mem hr)

/-- Every terminal row was left so by a statement of a task. -/
def Calling.AllTold (s : Calling) : Prop := ∀ r ∈ s.store.rows, r.status.isTerminal = true → s.Told r

/-- Behind a step of the fleet every terminal row is told of: it was terminal before, or its writer tells of it. -/
theorem Calling.AllTold.of_fleetStep {env : CallbackEnv} {s t : Calling} {a : FleetAction} (h : s.AllTold)
    (hstep : s.step env (.store (.fleet a)) = some t) : t.AllTold := by
  intro r hr hterminal
  have hwhole := hstep
  obtain ⟨hexecute, store, hstore, rfl⟩ := Calling.step_fleet hstep
  have kept (hold : r ∈ s.store.rows) : Calling.Told ⟨store, s.columnAfter a, s.hooksAfter a⟩ r :=
    (h r hold hterminal).of_step hwhole rfl rfl
  have opened {condition : Row → Bool} {f : Row → Row} (hopen : ∀ r, (f r).status.isTerminal = false)
      (hr : r ∈ updateWhere condition f s.store.rows) : Calling.Told ⟨store, s.columnAfter a, s.hooksAfter a⟩ r := by
    rcases mem_updateWhere hr with ⟨hold, _⟩ | ⟨old, _, _, rfl⟩
    · exact kept hold
    · cases (hopen old).symm.trans hterminal
  cases Fleet.effect_of_step hstore with
  | insert new hfresh =>
    rcases List.mem_append.mp hr with hold | hnew
    · exact kept hold
    · rw [List.mem_singleton.mp hnew] at hterminal
      cases hterminal
  | claim workerId locked next hnext hqueued => exact opened (fun _ => rfl) hr
  | claimLost workerId locked next hnext hqueued => exact opened (fun _ => rfl) hr
  | sweep => exact opened (fun _ => rfl) hr
  | writeResult i reply hcommitted task htask result hphase =>
    rcases mem_updateWhere hr with ⟨hold, _⟩ | ⟨old, hold, htoken, rfl⟩
    · exact kept hold
    · have hpresent := Task.rowPresent_of_mem hold (beq_iff_eq.mp htoken)
      have hended : result.status.isTerminal = true := (isTerminal_encodeStatus result.status).symm.trans hterminal
      have hmarks : CallbackEvent.terminal result.status ∈ task.marks s.store.rows (.writeResult i reply) := by
        simp only [Task.marks, hphase, hcommitted, hpresent, hended, Bool.and_self, if_true, List.mem_singleton]
      exact Calling.told_of_marks hwhole rfl htask hmarks (beq_iff_eq.mp htoken).symm rfl
  | writeSandboxFailure i elapsed reply hcommitted task htask hphase =>
    rcases mem_updateWhere hr with ⟨hold, _⟩ | ⟨old, hold, htoken, rfl⟩
    · exact kept hold
    · have hpresent := Task.rowPresent_of_mem hold (beq_iff_eq.mp htoken)
      have hmarks : CallbackEvent.terminal .sandboxFailure ∈
          task.marks s.store.rows (.writeSandboxFailure i elapsed reply) := by
        simp only [Task.marks, hcommitted, hpresent, Bool.and_self, if_true, List.mem_singleton]
      exact Calling.told_of_marks hwhole rfl htask hmarks (beq_iff_eq.mp htoken).symm rfl
  | execute | executeFailed => exact absurd rfl (hexecute _ _)
  | claimFailed | publishProcessing | writeResultFailed | writeSandboxFailureFailed | publishFinished | crash
  | tick => exact kept hr

/-- Behind every step each terminal row is told of. -/
theorem Calling.AllTold.of_step {env : CallbackEnv} {s t : Calling} {a : CallingAction} (h : s.AllTold)
    (hstep : s.step env a = some t) : t.AllTold := by
  -- the other steps at most rewrite a row in place or delete it
  have same (hrows : ∀ r ∈ t.store.rows, ∃ old ∈ s.store.rows, r.token = old.token ∧ r.status = old.status) :
      t.AllTold := by
    intro r hr hterminal
    obtain ⟨old, hold, htoken, hstatus⟩ := hrows r hr
    exact (h old hold (hstatus ▸ hterminal)).of_step hstep htoken hstatus
  have unchanged (hrows : t.store.rows = s.store.rows) : t.AllTold :=
    same fun r hr => ⟨r, hrows ▸ hr, rfl, rfl⟩
  cases a with
  | store a =>
    cases a with
    | fleet a => exact h.of_fleetStep hstep
    | scrubPayloads config =>
      cases hstep
      refine same fun r hr => ?_
      rcases mem_updateWhere hr with ⟨hold, _⟩ | ⟨old, hold, _, rfl⟩
      · exact ⟨r, hold, rfl, rfl⟩
      · exact ⟨old, hold, rfl, rfl⟩
    | expireOldRows config =>
      cases hstep
      exact same fun r hr => ⟨r, List.mem_of_mem_filter hr, rfl, rfl⟩
  | execute j attempts =>
    obtain ⟨task, htask, hmapped⟩ := Option.bind_eq_some_iff.mp hstep
    obtain ⟨store, hstore, rfl⟩ := Option.map_eq_some_iff.mp hmapped
    refine unchanged ?_
    generalize processOutcome env task.job attempts = outcome at hstore
    cases Fleet.effect_of_step hstore with
    | execute | executeFailed => rfl
  | settle j timestamp respond =>
    obtain ⟨task, htask, hsettled⟩ := Option.bind_eq_some_iff.mp hstep
    split at hsettled
    · cases hsettled
      exact unchanged rfl
    · cases hsettled
  | record j reply =>
    obtain ⟨task, htask, hrecorded⟩ := Option.bind_eq_some_iff.mp hstep
    split at hrecorded
    · cases hrecorded
      refine unchanged ?_
      unfold Calling.updateCallbackStatus
      split
      · rfl
      · rfl
    · cases hrecorded

/-- In every run, each terminal row was left so by a statement of a task. -/
theorem allTold_of_reachable {env : CallbackEnv} {s : Calling} (hreached : Reachable (Calling.step env) .init s) :
    s.AllTold :=
  hreached.invariant Calling.AllTold (fun _ hr => by cases hr) fun _ _ _ h _ hstep => h.of_step hstep

/-- What a statement tells is so: the row of the task has that terminal status behind it. -/
theorem row_of_mem_marks {env : CallbackEnv} {s t : Calling} {a : FleetAction} {i : ℕ} {task : Task} {status : Status}
    (hstep : s.step env (.store (.fleet a)) = some t) (hindex : a.taskIndex = some i)
    (htask : s.store.task i = some task) (hmarks : .terminal status ∈ task.marks s.store.rows a) :
    ∃ r ∈ t.store.rows, r.token = task.job.token ∧ r.status = (encodeStatus status).1 ∧
      r.status.isTerminal = true := by
  obtain ⟨_, store, hstore, rfl⟩ := Calling.step_fleet hstep
  have written {f : Row → Row} (hrows : store.rows = updateWhere (fun r => r.token == task.job.token) f s.store.rows)
      (hpresent : task.rowPresent s.store.rows = true) (htoken : ∀ r, (f r).token = r.token)
      (hstatus : ∀ r, (f r).status = (encodeStatus status).1) (hended : status.isTerminal = true) :
      ∃ r ∈ store.rows, r.token = task.job.token ∧ r.status = (encodeStatus status).1 ∧ r.status.isTerminal = true := by
    obtain ⟨old, hsame, hmem⟩ := exists_rewritten_of_key (List.contains_iff_mem.mp hpresent) f
    rw [← hrows] at hmem
    have hterminal : (f old).status.isTerminal = true := by rw [hstatus, isTerminal_encodeStatus, hended]
    exact ⟨f old, hmem, (htoken old).trans hsame, hstatus old, hterminal⟩
  cases Fleet.effect_of_step hstore with
  | writeResult j reply hcommitted task' htask' result hphase =>
    cases hindex
    cases htask.symm.trans htask'
    simp only [Task.marks, hphase] at hmarks
    split at hmarks
    · rename_i heffect
      cases List.mem_singleton.mp hmarks
      obtain ⟨⟨_, hpresent⟩, hended⟩ := by simpa only [Bool.and_eq_true] using heffect
      exact written rfl hpresent (fun _ => rfl) (fun _ => rfl) hended
    · cases hmarks
  | writeSandboxFailure j elapsed reply hcommitted task' htask' hphase =>
    cases hindex
    cases htask.symm.trans htask'
    simp only [Task.marks] at hmarks
    split at hmarks
    · rename_i heffect
      cases List.mem_singleton.mp hmarks
      exact written rfl (Bool.and_eq_true_iff.mp heffect).2 (fun _ => rfl) (fun _ => rfl) rfl
    · cases hmarks
  | writeResultFailed j task' htask' result hphase =>
    cases hindex
    cases htask.symm.trans htask'
    simp only [Task.marks, hphase] at hmarks
    cases hmarks
  | writeSandboxFailureFailed j elapsed task' htask' hphase => cases hmarks
  | insert | claim | claimLost | claimFailed | publishProcessing | execute | executeFailed | publishFinished | crash
  | sweep | tick => cases hmarks

end ZeroCode.Worker
