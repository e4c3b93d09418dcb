import ZeroCode.Worker.Callback

/-!
# Terminal rows and their callbacks

A task with a callback URL that has left its row terminal may still call back as long as it
lives and its callback has not come to nothing. Once that is lost it is lost for good, and
it is lost exactly in the steps that fail behind a terminal row: a write whose effect the
task does not hear of or that belongs to the path of a failure, a crash, or an update that
does not reach the row.
-/

namespace ZeroCode.Worker

open ZeroCode.Core ZeroCode.Foundation ZeroCode.Sandbox

/-- A statement of the task left its row terminal. -/
def Hook.Marked (h : Hook) : Prop := ∃ status, .terminal status ∈ h.history

/-- The outcome of the callback is in the row. -/
def Hook.Recorded (h : Hook) : Prop := ∃ status, .recorded status ∈ h.history

/-- Every terminal status in which the task left its row was delivered or failed to be, and the outcome is in the
row. -/
def Hook.CalledBack (h : Hook) (url : String) : Prop :=
  ∀ status, .terminal status ∈ h.history →
    (∃ result, .invoked url result ∈ h.history ∧ result.status = status) ∧ h.Recorded

/-- Nothing more will come from the task: its worker crashed, or it is done with the row and with the callback. -/
def Calling.Over (s : Calling) (i : ℕ) : Prop :=
  ∃ task, s.store.tasks[i]? = some task ∧ (task.crashed = true ∨ task.phase = .done ∧ (s.hooks i).phase = .idle)

/-- A step of a task does not cost it its callback. Its row is not left terminal by a write that it takes for a
failure or that records a failure; and once its row is terminal, the worker does not crash before the callback is
settled, and the update of the callback status reaches the row. -/
def Calling.Keeps (i : ℕ) (s : Calling) (task : Task) : CallingAction → Prop
  | .store (.fleet (.writeResult _ .acknowledged)) => True
  | .store (.fleet (.crash _)) => (s.hooks i).Marked → (s.hooks i).phase = .idle
  | .store (.fleet a) => task.marks s.store.rows a = []
  | .record _ reply => (s.hooks i).Marked → (reply.committed && task.rowPresent s.store.rows) = true
  | .store (.scrubPayloads _) | .store (.expireOldRows _) | .execute _ _ | .settle _ _ _ => True

/-- If it is a step of this task, and the task has a callback URL, it does not cost it its callback. -/
def Calling.Attends (i : ℕ) (s : Calling) (a : CallingAction) : Prop :=
  a.taskIndex = some i → ∀ task, s.store.task i = some task → task.job.callbackUrl ≠ none → s.Keeps i task a

/-- What it takes for a step of the task. -/
theorem Calling.attends_iff {s : Calling} {i : ℕ} {a : CallingAction} {task : Task} (hindex : a.taskIndex = some i)
    (htask : s.store.task i = some task) : s.Attends i a ↔ (task.job.callbackUrl ≠ none → s.Keeps i task a) := by
  constructor
  · exact fun h => h hindex task htask
  · intro h _ task' htask'
    cases htask.symm.trans htask'
    exact h

/-- The task has not tried to write its row yet. -/
def TaskPhase.working : TaskPhase → Bool
  | .claimed | .executing | .writing _ => true
  | .failing | .publishing _ | .done => false

/-- How a task and its callback stand to each other. -/
inductive CallStage : Option Task → Hook → Prop
  | absent : CallStage none ⟨.idle, []⟩
  | working (task : Task) (hphase : task.phase.working = true) : CallStage (some task) ⟨.idle, []⟩
  | uncalled (task : Task) (history : List CallbackEvent) (hphase : task.phase.working = false)
    (hmarks : ∀ e ∈ history, ∃ status, e = .terminal status) : CallStage (some task) ⟨.idle, history⟩
  | owed (task : Task) (result : SandboxResult) (marks : List CallbackEvent)
    (hphase : task.phase = .publishing result.status) (hmarks : ∀ e ∈ marks, e = .terminal result.status) :
    CallStage (some task) ⟨.owed result, marks⟩
  | called (task : Task) (result : SandboxResult) (url : String) (marks records : List CallbackEvent)
    (phase : HookPhase) (hphase : task.phase = .done) (hurl : task.job.callbackUrl = some url)
    (hmarks : ∀ e ∈ marks, e = .terminal result.status) (hrecords : ∀ e ∈ records, ∃ status, e = .recorded status)
    (hhook : (phase = .posting url result ∨ ∃ status, phase = .recording status) ∧ records = [] ∨ phase = .idle) :
    CallStage (some task) ⟨phase, marks ++ .invoked url result :: records⟩

/-- What a statement leaves is a terminal status. -/
theorem Task.terminal_of_mem_marks {task : Task} {rows : List Row} {a : FleetAction} {e : CallbackEvent}
    (he : e ∈ task.marks rows a) : ∃ status, e = .terminal status := by
  unfold Task.marks at he
  split at he
  · split at he
    · split at he
      · exact ⟨_, List.mem_singleton.mp he⟩
      · cases he
    · cases he
  · split at he
    · exact ⟨_, List.mem_singleton.mp he⟩
    · cases he
  · cases he

/-- What the write of a result leaves is the status of the result. -/
theorem Task.eq_of_mem_marks {task : Task} {rows : List Row} {i : ℕ} {reply : Reply} {result : SandboxResult}
    (hphase : task.phase = .writing result) {e : CallbackEvent} (he : e ∈ task.marks rows (.writeResult i reply)) :
    e = .terminal result.status := by
  simp only [Task.marks, hphase] at he
  split at he
  · exact List.mem_singleton.mp he
  · cases he

/-- A task that has not tried to write its row has no callback yet. -/
theorem CallStage.of_working {task : Task} {h : Hook} (stage : CallStage (some task) h)
    (hworking : task.phase.working = true) : h = ⟨.idle, []⟩ := by
  cases stage with
  | working _ hphase => rfl
  | uncalled _ history hphase hmarks => cases hphase.symm.trans hworking
  | owed _ result marks hphase hmarks =>
    rw [hphase] at hworking
    cases hworking
  | called _ result url marks records phase hphase hurl hmarks hrecords hhook =>
    rw [hphase] at hworking
    cases hworking

/-- A task on the path of a failure has no callback. -/
theorem CallStage.of_failing {task : Task} {h : Hook} (stage : CallStage (some task) h)
    (hfailing : task.phase = .failing) :
    h.phase = .idle ∧ ∀ e ∈ h.history, ∃ status, e = .terminal status := by
  cases stage with
  | working _ hphase =>
    rw [hfailing] at hphase
    cases hphase
  | uncalled _ history hphase hmarks => exact ⟨rfl, hmarks⟩
  | owed _ result marks hphase hmarks => cases hfailing.symm.trans hphase
  | called _ result url marks records phase hphase hurl hmarks hrecords hhook => cases hfailing.symm.trans hphase

/-- A task that broadcasts its end owes its callback, or has none. -/
theorem CallStage.of_publishing {task : Task} {h : Hook} {status : Status} (stage : CallStage (some task) h)
    (hpublishing : task.phase = .publishing status) :
    (h.phase = .idle ∧ ∀ e ∈ h.history, ∃ status, e = .terminal status) ∨
      ∃ result, h.phase = .owed result ∧ ∀ e ∈ h.history, e = .terminal result.status := by
  cases stage with
  | working _ hphase =>
    rw [hpublishing] at hphase
    cases hphase
  | uncalled _ history hphase hmarks => exact Or.inl ⟨rfl, hmarks⟩
  | owed _ result marks hphase hmarks => exact Or.inr ⟨result, rfl, hmarks⟩
  | called _ result url marks records phase hphase hurl hmarks hrecords hhook => cases hpublishing.symm.trans hphase

/-- As long as its callback is not settled, a task has recorded nothing. -/
theorem CallStage.not_recorded {task : Task} {h : Hook} (stage : CallStage (some task) h) (hbusy : h.phase ≠ .idle) :
    ¬ h.Recorded := by
  rintro ⟨status, hrecorded⟩
  cases stage with
  | working | uncalled => exact hbusy rfl
  | owed _ result marks hphase hmarks => cases hmarks _ hrecorded
  | called _ result url marks records phase hphase hurl hmarks hrecords hhook =>
    rcases hhook with ⟨_, rfl⟩ | rfl
    · rcases List.mem_append.mp hrecorded with hmark | hinvoked
      · cases hmarks _ hmark
      · cases List.mem_singleton.mp hinvoked
    · exact hbusy rfl

/-- A task whose callback is under way knows its URL and what it wrote. -/
theorem CallStage.of_delivering {task : Task} {h : Hook} (stage : CallStage (some task) h)
    (hdelivering : (∃ url result, h.phase = .posting url result) ∨ ∃ status, h.phase = .recording status) :
    ∃ result url marks, task.phase = .done ∧ task.job.callbackUrl = some url ∧
      (∀ e ∈ marks, e = .terminal result.status) ∧ h.history = marks ++ [.invoked url result] := by
  cases stage with
  | working | uncalled | owed => rcases hdelivering with ⟨_, _, h⟩ | ⟨_, h⟩ <;> cases h
  | called _ result url marks records phase hphase hurl hmarks hrecords hhook =>
    rcases hhook with ⟨_, rfl⟩ | rfl
    · exact ⟨result, url, marks, hphase, hurl, hmarks, rfl⟩
    · rcases hdelivering with ⟨_, _, h⟩ | ⟨_, h⟩ <;> cases h

/-- A task behind its last write has left only terminal rows. -/
theorem CallStage.mk_uncalled {task : Task} {h : Hook} (hphase : task.phase.working = false)
    (hidle : h.phase = .idle) (hmarks : ∀ e ∈ h.history, ∃ status, e = .terminal status) :
    CallStage (some task) h := by
  obtain ⟨phase, history⟩ := h
  subst hidle
  exact .uncalled task history hphase hmarks

/-- Every step keeps a task and its callback in such a relation. -/
theorem CallStage.of_move {s : Calling} {i : ℕ} {a : CallingAction} {task' : Option Task} {h' : Hook}
    (stage : CallStage s.store.tasks[i]? (s.hooks i)) (move : s.Move i a task' h') : CallStage task' h' := by
  have here {task : Task} (htask : s.store.task i = some task) : CallStage (some task) (s.hooks i) :=
    (Fleet.getElem_of_task htask).1 ▸ stage
  cases move with
  | kept _ hother => exact stage
  | claimed _ workerId job hother hnew =>
    rw [hnew] at stage
    cases hhook : s.hooks i with
    | mk phase history =>
      rw [hhook] at stage
      cases stage with
      | absent => exact .working _ rfl
  | begun _ _ htask hphase | executed _ _ _ htask hphase =>
    rw [(here htask).of_working (by rw [hphase]; rfl)]
    exact .working _ rfl
  | executeFailed attempts task htask hphase =>
    rw [(here htask).of_working (by rw [hphase]; rfl)]
    exact .uncalled _ [] rfl (List.forall_mem_nil _)
  | written wrote result task htask hphase =>
    rw [(here htask).of_working (by rw [hphase]; rfl)]
    refine .owed _ result _ rfl fun e he => ?_
    rw [List.nil_append] at he
    exact Task.eq_of_mem_marks hphase he
  | unwritten reply hreply wrote result task htask hphase =>
    rw [(here htask).of_working (by rw [hphase]; rfl)]
    refine .uncalled _ _ rfl fun e he => ?_
    rw [List.nil_append] at he
    exact Task.terminal_of_mem_marks he
  | failed elapsed reply wrote task htask hphase =>
    obtain ⟨hidle, hmarks⟩ := (here htask).of_failing hphase
    refine .mk_uncalled rfl hidle fun e he => ?_
    rcases List.mem_append.mp he with hold | hnew
    · exact hmarks e hold
    · exact Task.terminal_of_mem_marks hnew
  | invoked ok status result url task htask hphase howed hurl =>
    rcases (here htask).of_publishing hphase with ⟨hidle, _⟩ | ⟨result', howed', hmarks⟩
    · cases hidle.symm.trans howed
    · cases howed.symm.trans howed'
      exact .called _ result url _ [] _ rfl hurl hmarks (List.forall_mem_nil _) (Or.inl ⟨Or.inl rfl, rfl⟩)
  | uncalled ok status result task htask hphase howed hurl =>
    rcases (here htask).of_publishing hphase with ⟨hidle, _⟩ | ⟨result', howed', hmarks⟩
    · cases hidle.symm.trans howed
    · exact .uncalled _ _ rfl fun e he => ⟨_, hmarks e he⟩
  | finished ok status task htask hphase howed =>
    rcases (here htask).of_publishing hphase with ⟨hidle, hmarks⟩ | ⟨result, howed', _⟩
    · exact .mk_uncalled rfl hidle hmarks
    · exact absurd howed' (howed result)
  | crashed task htask =>
    cases hhook : s.hooks i with
    | mk phase history =>
      have stage' := here htask
      rw [hhook] at stage'
      cases stage' with
      | working _ hphase => exact .working _ hphase
      | uncalled _ _ hphase hmarks => exact .uncalled _ history hphase hmarks
      | owed _ result _ hphase hmarks => exact .owed _ result history hphase hmarks
      | called _ result url marks records _ hphase hurl hmarks hrecords hstands =>
        exact .called _ result url marks records phase hphase hurl hmarks hrecords hstands
  | settled timestamp respond url result status task htask hposting =>
    obtain ⟨result, url, marks, hphase, hurl, hmarks, hhistory⟩ :=
      (here htask).of_delivering (Or.inl ⟨url, result, hposting⟩)
    rw [hhistory]
    exact .called _ result url marks [] _ hphase hurl hmarks (List.forall_mem_nil _) (Or.inl ⟨Or.inr ⟨status, rfl⟩, rfl⟩)
  | recorded reply status task htask hrecording heffect =>
    obtain ⟨result, url, marks, hphase, hurl, hmarks, hhistory⟩ :=
      (here htask).of_delivering (Or.inr ⟨status, hrecording⟩)
    rw [hhistory, List.append_assoc]
    refine .called _ result url marks [.recorded status] _ hphase hurl hmarks (fun e he => ?_) (Or.inr rfl)
    exact ⟨status, List.mem_singleton.mp he⟩
  | unrecorded reply status task htask hrecording heffect =>
    obtain ⟨result, url, marks, hphase, hurl, hmarks, hhistory⟩ :=
      (here htask).of_delivering (Or.inr ⟨status, hrecording⟩)
    rw [hhistory]
    exact .called _ result url marks [] _ hphase hurl hmarks (List.forall_mem_nil _) (Or.inr rfl)

/-- The task has a callback URL and left its row terminal, and will never record a callback. -/
def Missed (task : Option Task) (h : Hook) : Prop :=
  ∃ task', task = some task' ∧ task'.job.callbackUrl ≠ none ∧ h.Marked ∧ ¬ h.Recorded ∧
    (task'.crashed = true ∨ h.phase = .idle)

/-- What was left before is left. -/
theorem Hook.Marked.append {phase phase' : HookPhase} {history : List CallbackEvent} (h : Hook.Marked ⟨phase, history⟩)
    (more : List CallbackEvent) : Hook.Marked ⟨phase', history ++ more⟩ := by
  obtain ⟨status, hmarked⟩ := h
  exact ⟨status, List.mem_append_left more hmarked⟩

/-- Terminal statuses record nothing. -/
theorem Hook.not_recorded_of_marks {h : Hook} (hmarks : ∀ e ∈ h.history, ∃ status, e = .terminal status) :
    ¬ h.Recorded := by
  rintro ⟨status, hrecorded⟩
  obtain ⟨_, hsame⟩ := hmarks _ hrecorded
  cases hsame

/-- A task that has left nothing has not missed its callback. -/
theorem not_missed_of_nil {task : Option Task} {phase : HookPhase} : ¬ Missed task ⟨phase, []⟩ := by
  rintro ⟨_, _, _, ⟨_, hmarked⟩, _⟩
  cases hmarked

/-- A live task whose callback is under way has not missed it. -/
theorem not_missed_of_busy {task : Task} {h : Hook} (hlive : task.crashed = false) (hbusy : h.phase ≠ .idle) :
    ¬ Missed (some task) h := by
  rintro ⟨_, hsame, _, _, _, hcrashed | hidle⟩
  · cases hsame
    cases hlive.symm.trans hcrashed
  · exact hbusy hidle

/-- On the path of a failure a callback is missed exactly by leaving a terminal row. -/
theorem missed_append_marks_iff {task : Task} {h : Hook} {marks : List CallbackEvent} (hidle : h.phase = .idle)
    (hold : ∀ e ∈ h.history, ∃ status, e = .terminal status) (hnew : ∀ e ∈ marks, ∃ status, e = .terminal status)
    (hnot : ¬ Missed (some task) h) {task' : Task} (hjob : task'.job = task.job) :
    Missed (some task') ⟨h.phase, h.history ++ marks⟩ ↔ task.job.callbackUrl ≠ none ∧ marks ≠ [] := by
  have hunrecorded : ¬ Hook.Recorded ⟨h.phase, h.history ++ marks⟩ := Hook.not_recorded_of_marks fun e he =>
    (List.mem_append.mp he).elim (hold e) (hnew e)
  constructor
  · rintro ⟨_, hsame, hurl, ⟨status, hmarked⟩, _, _⟩
    cases hsame
    rw [hjob] at hurl
    refine ⟨hurl, ?_⟩
    rintro rfl
    rw [List.append_nil] at hmarked
    exact hnot ⟨task, rfl, hurl, ⟨status, hmarked⟩, Hook.not_recorded_of_marks hold, Or.inr hidle⟩
  · rintro ⟨hurl, hmarks⟩
    obtain ⟨e, he⟩ := List.exists_mem_of_ne_nil marks hmarks
    obtain ⟨status, rfl⟩ := hnew e he
    exact ⟨task', rfl, by rwa [hjob], ⟨status, List.mem_append_right _ he⟩, hunrecorded, Or.inr hidle⟩

/-- A missed callback stays missed. -/
theorem Missed.of_move {s : Calling} {i : ℕ} {a : CallingAction} {task' : Option Task} {h' : Hook}
    (missed : Missed s.store.tasks[i]? (s.hooks i)) (stage : CallStage s.store.tasks[i]? (s.hooks i))
    (move : s.Move i a task' h') : Missed task' h' := by
  have here {task : Task} (htask : s.store.task i = some task) :
      CallStage (some task) (s.hooks i) ∧ Missed (some task) (s.hooks i) :=
    (Fleet.getElem_of_task htask).1 ▸ ⟨stage, missed⟩
  -- a task that has not tried to write has nothing to miss
  have working {task : Task} (htask : s.store.task i = some task) (hworking : task.phase.working = true) : False := by
    obtain ⟨hstage, hmissed⟩ := here htask
    rw [hstage.of_working hworking] at hmissed
    exact not_missed_of_nil hmissed
  have busy {task : Task} (htask : s.store.task i = some task) (hbusy : (s.hooks i).phase ≠ .idle) : False :=
    not_missed_of_busy (Fleet.getElem_of_task htask).2 hbusy (here htask).2
  cases move with
  | kept _ hother => exact missed
  | claimed _ workerId job hother hnew =>
    obtain ⟨_, hsome, _⟩ := missed
    cases hnew.symm.trans hsome
  | begun _ _ htask hphase | executed _ _ _ htask hphase | executeFailed _ _ htask hphase
  | written _ _ _ htask hphase | unwritten _ _ _ _ _ htask hphase =>
    exact (working htask (by rw [hphase]; rfl)).elim
  | failed elapsed reply wrote task htask hphase =>
    obtain ⟨hidle, hmarks⟩ := (here htask).1.of_failing hphase
    obtain ⟨_, hsame, hurl, hmarked, _, _⟩ := (here htask).2
    cases hsame
    refine ⟨_, rfl, hurl, hmarked.append _, Hook.not_recorded_of_marks fun e he => ?_, Or.inr hidle⟩
    exact (List.mem_append.mp he).elim (hmarks e) Task.terminal_of_mem_marks
  | invoked _ _ _ _ _ htask _ hbusy | uncalled _ _ _ _ htask _ hbusy | settled _ _ _ _ _ _ htask hbusy
  | recorded _ _ _ htask hbusy | unrecorded _ _ _ htask hbusy => exact (busy htask (by rw [hbusy]; nofun)).elim
  | finished ok status task htask hphase howed =>
    obtain ⟨_, hsame, hurl, hmarked, hunrecorded, hlost⟩ := (here htask).2
    cases hsame
    exact ⟨_, rfl, hurl, hmarked, hunrecorded, hlost⟩
  | crashed task htask =>
    obtain ⟨_, hsame, hurl, hmarked, hunrecorded, _⟩ := (here htask).2
    cases hsame
    exact ⟨_, rfl, hurl, hmarked, hunrecorded, Or.inl rfl⟩

/-- A callback is missed exactly in a step that does not attend to it. -/
theorem missed_iff_of_move {s : Calling} {i : ℕ} {a : CallingAction} {task' : Option Task} {h' : Hook}
    (hnot : ¬ Missed s.store.tasks[i]? (s.hooks i)) (stage : CallStage s.store.tasks[i]? (s.hooks i))
    (move : s.Move i a task' h') : Missed task' h' ↔ ¬ s.Attends i a := by
  have here {task : Task} (htask : s.store.task i = some task) :
      CallStage (some task) (s.hooks i) ∧ ¬ Missed (some task) (s.hooks i) :=
    (Fleet.getElem_of_task htask).1 ▸ ⟨stage, hnot⟩
  have none_of_working {task : Task} (htask : s.store.task i = some task) (hworking : task.phase.working = true) :
      s.hooks i = ⟨.idle, []⟩ := (here htask).1.of_working hworking
  -- a step that misses nothing and attends
  have fine (hkept : ¬ Missed task' h') (hattends : s.Attends i a) : Missed task' h' ↔ ¬ s.Attends i a :=
    ⟨fun hmissed => absurd hmissed hkept, fun hneglects => absurd hattends hneglects⟩
  -- a write on the path of a failure
  have failing {task task'' : Task} {marks : List CallbackEvent} (htask : s.store.task i = some task)
      (hidle : (s.hooks i).phase = .idle) (hmarks : ∀ e ∈ (s.hooks i).history, ∃ status, e = .terminal status)
      (hnew : ∀ e ∈ marks, ∃ status, e = .terminal status) (hjob : task''.job = task.job)
      (hattends : s.Attends i a ↔ (task.job.callbackUrl ≠ none → marks = [])) :
      Missed (some task'') ⟨(s.hooks i).phase, (s.hooks i).history ++ marks⟩ ↔ ¬ s.Attends i a := by
    rw [missed_append_marks_iff hidle hmarks hnew (here htask).2 hjob, hattends, Classical.not_imp]
  cases move with
  | kept _ hother => exact fine hnot fun hindex => absurd hindex hother
  | claimed _ workerId job hother hnew =>
    refine fine ?_ fun hindex => absurd hindex hother
    cases hhook : s.hooks i with
    | mk phase history =>
      rw [hnew, hhook] at stage
      cases stage with
      | absent => exact not_missed_of_nil
  | begun ok task htask hphase =>
    have hnone := none_of_working htask (by rw [hphase]; rfl)
    exact fine (hnone ▸ not_missed_of_nil) ((Calling.attends_iff rfl htask).mpr fun _ => rfl)
  | executed attempts result task htask hphase =>
    have hnone := none_of_working htask (by rw [hphase]; rfl)
    exact fine (hnone ▸ not_missed_of_nil) ((Calling.attends_iff rfl htask).mpr fun _ => trivial)
  | executeFailed attempts task htask hphase =>
    have hnone := none_of_working htask (by rw [hphase]; rfl)
    exact fine (hnone ▸ not_missed_of_nil) ((Calling.attends_iff rfl htask).mpr fun _ => trivial)
  | written wrote result task htask hphase =>
    refine fine (not_missed_of_busy (Fleet.getElem_of_task htask).2 nofun) ?_
    exact (Calling.attends_iff rfl htask).mpr fun _ => trivial
  | unwritten reply hreply wrote result task htask hphase =>
    have hnone := none_of_working htask (by rw [hphase]; rfl)
    refine failing htask (by rw [hnone]) (by rw [hnone]; exact List.forall_mem_nil _)
      (fun _ => Task.terminal_of_mem_marks) rfl ?_
    rw [Calling.attends_iff rfl htask]
    cases reply with
    | acknowledged => exact absurd rfl hreply
    | lost | failed => rfl
  | failed elapsed reply wrote task htask hphase =>
    obtain ⟨hidle, hmarks⟩ := (here htask).1.of_failing hphase
    exact failing htask hidle hmarks (fun _ => Task.terminal_of_mem_marks) rfl (Calling.attends_iff rfl htask)
  | invoked ok status result url task htask hphase howed hurl =>
    refine fine (not_missed_of_busy (Fleet.getElem_of_task htask).2 nofun) ?_
    exact (Calling.attends_iff rfl htask).mpr fun _ => rfl
  | uncalled ok status result task htask hphase howed hurl =>
    refine fine ?_ ((Calling.attends_iff rfl htask).mpr fun _ => rfl)
    rintro ⟨_, hsame, hnone, _⟩
    cases hsame
    exact hnone hurl
  | finished ok status task htask hphase howed =>
    refine fine ?_ ((Calling.attends_iff rfl htask).mpr fun _ => rfl)
    rintro ⟨_, hsame, hurl, hmarked, hunrecorded, hlost⟩
    cases hsame
    exact (here htask).2 ⟨task, rfl, hurl, hmarked, hunrecorded, hlost⟩
  | crashed task htask =>
    rw [Calling.attends_iff rfl htask, Classical.not_imp]
    change _ ↔ _ ∧ ¬ ((s.hooks i).Marked → (s.hooks i).phase = .idle)
    constructor
    · rintro ⟨_, hsame, hurl, hmarked, hunrecorded, _⟩
      cases hsame
      refine ⟨hurl, fun hkeeps => (here htask).2 ?_⟩
      exact ⟨task, rfl, hurl, hmarked, hunrecorded, Or.inr (hkeeps hmarked)⟩
    · rintro ⟨hurl, hneglects⟩
      obtain ⟨hmarked, hbusy⟩ := Classical.not_imp.mp hneglects
      exact ⟨_, rfl, hurl, hmarked, (here htask).1.not_recorded hbusy, Or.inl rfl⟩
  | settled timestamp respond url result status task htask hposting =>
    refine fine (not_missed_of_busy (Fleet.getElem_of_task htask).2 nofun) ?_
    exact (Calling.attends_iff rfl htask).mpr fun _ => trivial
  | recorded reply status task htask hrecording heffect =>
    refine fine ?_ ((Calling.attends_iff rfl htask).mpr fun _ _ => heffect)
    rintro ⟨_, _, _, _, hunrecorded, _⟩
    exact hunrecorded ⟨status, List.mem_append_right _ (List.mem_singleton_self _)⟩
  | unrecorded reply status task htask hrecording heffect =>
    have hbusy : (s.hooks i).phase ≠ .idle := by
      rw [hrecording]
      nofun
    rw [Calling.attends_iff rfl htask, Classical.not_imp]
    change _ ↔ _ ∧ ¬ ((s.hooks i).Marked → (reply.committed && task.rowPresent s.store.rows) = true)
    constructor
    · rintro ⟨_, hsame, hurl, hmarked, _, _⟩
      cases hsame
      refine ⟨hurl, fun hkeeps => ?_⟩
      cases heffect.symm.trans (hkeeps hmarked)
    · rintro ⟨hurl, hneglects⟩
      obtain ⟨hmarked, _⟩ := Classical.not_imp.mp hneglects
      exact ⟨task, rfl, hurl, hmarked, (here htask).1.not_recorded hbusy, Or.inr rfl⟩

/-- In every run, a task and its callback stand in one of these relations. -/
theorem callStage_of_reachable {env : CallbackEnv} {s : Calling} (hreached : Reachable (Calling.step env) .init s)
    (i : ℕ) : CallStage s.store.tasks[i]? (s.hooks i) :=
  hreached.invariant (fun s => CallStage s.store.tasks[i]? (s.hooks i)) .absent fun _ _ _ stage _ hstep =>
    stage.of_move (Calling.move_of_step hstep i)

/-- When nothing more will come from a task with a callback URL, it has called back exactly if it did not miss it. -/
theorem calledBack_iff_not_missed {s : Calling} {i : ℕ} {task : Task} {url : String}
    (stage : CallStage s.store.tasks[i]? (s.hooks i)) (htask : s.store.tasks[i]? = some task)
    (hurl : task.job.callbackUrl = some url) (hover : s.Over i) :
    (s.hooks i).CalledBack url ↔ ¬ Missed s.store.tasks[i]? (s.hooks i) := by
  constructor
  · rintro hcalled ⟨_, _, _, ⟨status, hmarked⟩, hunrecorded, _⟩
    exact hunrecorded (hcalled status hmarked).2
  · intro hnot status hmarked
    have hrecorded : (s.hooks i).Recorded := by
      by_contra hunrecorded
      obtain ⟨task', htask', hends⟩ := hover
      cases htask.symm.trans htask'
      refine hnot ⟨task, htask, by rw [hurl]; nofun, ⟨status, hmarked⟩, hunrecorded, ?_⟩
      exact hends.imp id fun hdone => hdone.2
    refine ⟨?_, hrecorded⟩
    rw [htask] at stage
    cases hhook : s.hooks i with
    | mk phase history =>
      rw [hhook] at stage hmarked hrecorded
      obtain ⟨outcome, hrecorded⟩ := hrecorded
      cases stage with
      | working => cases hmarked
      | uncalled _ _ hphase hmarks =>
        obtain ⟨_, hsame⟩ := hmarks _ hrecorded
        cases hsame
      | owed _ result _ hphase hmarks => cases hmarks _ hrecorded
      | called _ result url' marks records _ hphase hurl' hmarks hrecords hstands =>
        cases hurl.symm.trans hurl'
        refine ⟨result, List.mem_append_right _ List.mem_cons_self, ?_⟩
        rcases List.mem_append.mp hmarked with hmark | hrest
        · exact (CallbackEvent.terminal.inj (hmarks _ hmark)).symm
        · rcases List.mem_cons.mp hrest with hinvoked | hrecord
          · cases hinvoked
          · obtain ⟨_, hsame⟩ := hrecords _ hrecord
            cases hsame

/-- In every run, a task with a callback URL from which nothing more will come has called back for every terminal
status in which it left its row, exactly if no step of it cost it the callback. -/
theorem called_back_iff {env : CallbackEnv} {actions : List CallingAction} {s : Calling} {i : ℕ} {task : Task}
    {url : String} (hrun : runActions (Calling.step env) .init actions = some s)
    (htask : s.store.tasks[i]? = some task) (hurl : task.job.callbackUrl = some url) (hover : s.Over i) :
    (s.hooks i).CalledBack url ↔ Along (Calling.step env) (Calling.Attends i) .init actions := by
  rw [calledBack_iff_not_missed (callStage_of_reachable (.of_runActions actions hrun) i) htask hurl hover]
  refine along_iff_of_fault (fun s => CallStage s.store.tasks[i]? (s.hooks i))
    (fun s => Missed s.store.tasks[i]? (s.hooks i)) (fun s a t stage hstep => ?_) (fun s a t stage hstep missed => ?_)
    (fun s a t stage hstep hnot => ?_) .absent not_missed_of_nil hrun
  · exact stage.of_move (Calling.move_of_step hstep i)
  · exact missed.of_move stage (Calling.move_of_step hstep i)
  · exact missed_iff_of_move hnot stage (Calling.move_of_step hstep i)

/-- A submission that asks to be called back. -/
def hookedSubmission : NewSubmission := { NewSubmission.blank 7 with callbackUrl := some "https://example.org/hook" }

/-- A worker that knows the given languages. -/
def hookedEnv (languages : List LanguageSpec) : CallbackEnv := ⟨languages, ⟨fun _ => "{}", fun _ => some id, []⟩⟩

/-- The submission is inserted and claimed, and the sandbox returns the given outcome. -/
def untilExecuted (outcome : Except SandboxError SandboxResult) : List CallingAction :=
  [.store (.fleet (.insert hookedSubmission)), .store (.fleet (.claim "w" [] 7 .acknowledged)),
    .store (.fleet (.publishProcessing 0 true)), .execute 0 fun _ => ⟨0, 0, outcome⟩]

/-- The result is written and delivered at the second attempt. -/
def deliveredRun : List CallingAction :=
  untilExecuted (.ok acceptedResult) ++
    [.store (.fleet (.writeResult 0 .acknowledged)), .store (.fleet (.publishFinished 0 true)),
      .settle 0 1700000000 fun attempt => if attempt = 0 then some 503 else some 200, .record 0 .acknowledged]

/-- The system after that run. -/
def deliveredCalling : Calling := lastState (Calling.step (hookedEnv Api.pythonState.languages)) .init deliveredRun

/-- The callback of that submission is delivered. -/
theorem called_back_iff_deliveredRun :
    deliveredCalling.callbackStatus 7 = some .delivered ∧
      Along (Calling.step (hookedEnv Api.pythonState.languages)) (Calling.Attends 0) .init deliveredRun := by
  have hrun : runActions (Calling.step (hookedEnv Api.pythonState.languages)) .init deliveredRun = some deliveredCalling :=
    runActions_eq_lastState (by decide +kernel)
  have hhook : deliveredCalling.hooks 0 = ⟨.idle, [.terminal .accepted, .invoked "https://example.org/hook"
      acceptedResult, .recorded .delivered]⟩ := by decide +kernel
  have htask : deliveredCalling.store.tasks[0]? = some ⟨"w", (hookedSubmission.row 0).claimedJob, .done, true, false⟩ := by
    decide +kernel
  refine ⟨by decide +kernel, (called_back_iff hrun htask rfl ⟨_, htask, Or.inr ⟨rfl, ?_⟩⟩).mp ?_⟩
  · exact congrArg Hook.phase hhook
  · intro status hmarked
    rw [hhook] at hmarked ⊢
    have haccepted : status = .accepted := by simpa using hmarked
    subst haccepted
    exact ⟨⟨acceptedResult, by simp, rfl⟩, .delivered, by simp⟩

/-- The language of the submission is unknown to the worker. -/
def unknownRun : List CallingAction :=
  untilExecuted (.ok acceptedResult) ++
    [.store (.fleet (.writeSandboxFailure 0 0 .acknowledged)), .store (.fleet (.publishFinished 0 true))]

/-- The system after that run. -/
def unknownCalling : Calling := lastState (Calling.step (hookedEnv [])) .init unknownRun

/-- The submission ends as a failure, and nobody is told. -/
theorem not_called_back :
    ¬ ∀ (env : CallbackEnv) (actions : List CallingAction) (s : Calling) (i : ℕ) (task : Task) (url : String),
      runActions (Calling.step env) .init actions = some s → s.store.tasks[i]? = some task →
      task.job.callbackUrl = some url → s.Over i → (s.hooks i).CalledBack url := by
  intro hclaim
  have hrun : runActions (Calling.step (hookedEnv [])) .init unknownRun = some unknownCalling :=
    runActions_eq_lastState (by decide +kernel)
  have hhook : unknownCalling.hooks 0 = ⟨.idle, [.terminal .sandboxFailure]⟩ := by decide +kernel
  have htask : unknownCalling.store.tasks[0]? = some ⟨"w", (hookedSubmission.row 0).claimedJob, .done, true, false⟩ := by
    decide +kernel
  have hcalled := hclaim _ _ _ 0 _ _ hrun htask rfl ⟨_, htask, Or.inr ⟨rfl, congrArg Hook.phase hhook⟩⟩
  have hmarked : CallbackEvent.terminal .sandboxFailure ∈ (unknownCalling.hooks 0).history := by
    rw [hhook]
    exact List.mem_singleton_self _
  obtain ⟨⟨result, hinvoked, _⟩, _⟩ := hcalled _ hmarked
  change _ ∈ (unknownCalling.hooks 0).history at hinvoked
  rw [hhook] at hinvoked
  cases List.mem_singleton.mp hinvoked

end ZeroCode.Worker
