import ZeroCode.Worker.Fleet

/-!
# Announcing a terminal row

A task broadcasts the end of its submission only after it has written the row, on the path
of a result and on the path of a failure. So a row that becomes terminal leaves behind a
task that has yet to announce it, and that task stays until it broadcasts. A worker that
crashes in between never does.
-/

namespace ZeroCode.Worker

open ZeroCode.Core ZeroCode.Foundation ZeroCode.Sandbox

/-- The task wrote its row and has not broadcast its end yet. -/
def Task.unannounced (task : Task) : Bool :=
  task.wrote && match task.phase with
    | .failing | .publishing _ => true
    | .claimed | .executing | .writing _ | .done => false

/-- No broadcast of an end fails. -/
def Announces : FleetAction → Prop
  | .publishFinished _ ok => ok = true
  | _ => True

instance (a : FleetAction) : Decidable (Announces a) :=
  match a with
  | .publishFinished _ ok => inferInstanceAs (Decidable (ok = true))
  | .insert _ | .claim _ _ _ _ | .publishProcessing _ _ | .execute _ _ | .writeResult _ _
  | .writeSandboxFailure _ _ _ | .crash _ | .sweep | .tick _ => isTrue trivial

/-- Replacing a task by one that has as much to announce loses no announcement. -/
theorem Fleet.unannounced_setTask {s : Fleet} {i : ℕ} {old new task : Task} (hold : s.tasks[i]? = some old)
    (hjob : new.job = old.job) (hkeep : old.unannounced = true → new.unannounced = true) (htask : task ∈ s.tasks)
    (hopen : task.unannounced = true) :
    ∃ task' ∈ (s.setTask i new).tasks, task'.job.token = task.job.token ∧ task'.unannounced = true := by
  obtain ⟨k, hk⟩ := List.mem_iff_getElem?.mp htask
  by_cases hik : i = k
  · subst hik
    rw [hold] at hk
    obtain rfl := Option.some.inj hk
    obtain ⟨hlt, _⟩ := List.getElem?_eq_some_iff.mp hold
    exact ⟨new, List.mem_of_getElem? (List.getElem?_set_self hlt), by rw [hjob], hkeep hopen⟩
  · exact ⟨task, List.mem_of_getElem? ((List.getElem?_set_ne hik).trans hk), rfl, hopen⟩

/-- A replaced task is among the tasks. -/
theorem Fleet.mem_setTask {s : Fleet} {i : ℕ} {old new : Task} (hold : s.tasks[i]? = some old) :
    new ∈ (s.setTask i new).tasks := by
  obtain ⟨hlt, _⟩ := List.getElem?_eq_some_iff.mp hold
  exact List.mem_of_getElem? (List.getElem?_set_self hlt)

/-- A task that has yet to announce its row still has to after the step, unless the step announced it. -/
theorem Fleet.unannounced_of_step {s t : Fleet} {a : FleetAction} (hstep : s.step a = some t)
    (hannounces : Announces a) {task : Task} (htask : task ∈ s.tasks) (hopen : task.unannounced = true) :
    (∃ task' ∈ t.tasks, task'.job.token = task.job.token ∧ task'.unannounced = true) ∨
      ∃ status, s.published a = some (task.job.token, .finished status) := by
  have same (hsame : task ∈ t.tasks) :
      (∃ task' ∈ t.tasks, task'.job.token = task.job.token ∧ task'.unannounced = true) ∨
        ∃ status, s.published a = some (task.job.token, .finished status) :=
    Or.inl ⟨task, hsame, rfl, hopen⟩
  -- a task that moves on has nothing to announce, or has as much as before
  have moved {i : ℕ} {old new : Task} (hold : s.task i = some old) (hjob : new.job = old.job)
      (hkeep : old.unannounced = true → new.unannounced = true) :
      ∃ task' ∈ (s.setTask i new).tasks, task'.job.token = task.job.token ∧ task'.unannounced = true :=
    Fleet.unannounced_setTask (Fleet.getElem_of_task hold).1 hjob hkeep htask hopen
  cases Fleet.effect_of_step hstep with
  | insert new hfresh => exact same htask
  | claim workerId locked next hnext hqueued => exact same (List.mem_append_left _ htask)
  | claimLost workerId locked next hnext hqueued => exact same htask
  | claimFailed => exact same htask
  | publishProcessing i ok old hold hphase =>
    exact Or.inl (moved hold rfl fun h => by simp [Task.unannounced, hphase] at h)
  | execute i result old hold hphase =>
    exact Or.inl (moved hold rfl fun h => by simp [Task.unannounced, hphase] at h)
  | executeFailed i old hold hphase =>
    exact Or.inl (moved hold rfl fun h => by simp [Task.unannounced, hphase] at h)
  | writeResult i reply hcommitted old hold result hphase =>
    exact Or.inl (moved hold rfl fun h => by simp [Task.unannounced, hphase] at h)
  | writeResultFailed i old hold result hphase =>
    exact Or.inl (moved hold rfl fun h => by simp [Task.unannounced, hphase] at h)
  | writeSandboxFailure i elapsed reply hcommitted old hold hphase =>
    exact Or.inl (moved hold rfl fun _ => by simp [Task.unannounced])
  | writeSandboxFailureFailed i elapsed old hold hphase =>
    exact Or.inl (moved hold rfl fun h => by simpa [Task.unannounced, hphase] using h)
  | publishFinished i ok old hold status hphase =>
    have hok : ok = true := hannounces
    obtain ⟨k, hk⟩ := List.mem_iff_getElem?.mp htask
    by_cases hik : i = k
    · subst hik
      rw [(Fleet.getElem_of_task hold).1] at hk
      obtain rfl := Option.some.inj hk
      exact Or.inr ⟨status, by simp [hok, Fleet.published, hold, hphase]⟩
    · exact same (List.mem_of_getElem? ((List.getElem?_set_ne hik).trans hk))
  | crash i old hold => exact Or.inl (moved hold rfl fun h => h)
  | sweep => exact same htask
  | tick elapsed hnonneg => exact same htask

/-- A row that is terminal after the step was so before, or its writer has yet to announce it. -/
theorem Fleet.terminal_of_step {s t : Fleet} {a : FleetAction} (hstep : s.step a = some t) {r : Row} (hr : r ∈ t.rows)
    (hterminal : r.status.isTerminal = true) :
    (∃ old ∈ s.rows, old.token = r.token ∧ old.status.isTerminal = true) ∨
      ∃ task ∈ t.tasks, task.job.token = r.token ∧ task.unannounced = true := by
  have before (hold : r ∈ s.rows) :
      (∃ old ∈ s.rows, old.token = r.token ∧ old.status.isTerminal = true) ∨
        ∃ task ∈ t.tasks, task.job.token = r.token ∧ task.unannounced = true :=
    Or.inl ⟨r, hold, rfl, hterminal⟩
  cases Fleet.rowsEffect_of_step hstep with
  | same hrows =>
    rw [hrows] at hr
    exact before hr
  | inserted new hfresh hrows =>
    rw [hrows] at hr
    rcases List.mem_append.mp hr with hold | hnew
    · exact before hold
    · rw [List.mem_singleton.mp hnew] at hterminal
      cases hterminal
  | reopened condition f hrows htoken hopen hselected =>
    rw [hrows] at hr
    rcases mem_updateWhere hr with ⟨hkept, _⟩ | ⟨old, _, _, rfl⟩
    · exact before hkept
    · rw [hopen old] at hterminal
      cases hterminal
  | written i task new f htask hphase hrows htoken htasks hjob hwrote hnext =>
    rw [hrows] at hr
    rcases mem_updateWhere hr with ⟨hkept, _⟩ | ⟨old, _, hselected, rfl⟩
    · exact before hkept
    · right
      refine ⟨new, ?_, ?_, ?_⟩
      · rw [htasks]
        exact Fleet.mem_setTask (Fleet.getElem_of_task htask).1
      · rw [hjob, htoken]
        exact (beq_iff_eq.mp hselected).symm
      · rcases hnext with hfailing | ⟨status, hpublishing⟩
        · simp [Task.unannounced, hwrote, hfailing]
        · simp [Task.unannounced, hwrote, hpublishing]

end ZeroCode.Worker
