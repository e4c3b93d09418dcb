import ZeroCode.Api.RowInvariant
import ZeroCode.Api.WaitForCompletion

/-!
# The row behind an announced end

A handler that hears of the end of its submission returns the row as it reads it then, and
does not look at the status. A task announces an end after it wrote one; where it could not
write a sandbox failure it only logs that, and announces the end all the same. A row that
is terminal stays so whatever the workers and the sweeper do, so an announcement of such a
task is all that can hand a client a row that is still open.
-/

namespace ZeroCode.Api

open ZeroCode.Core ZeroCode.Foundation ZeroCode.Sandbox ZeroCode.Worker

/-- What a worker writes as a result is what a backend returned. -/
def JudgedWait : WaitAction → Prop
  | .outside a => Judged a
  | _ => True

/-- A sandbox failure of the submission that cannot be written finds the row terminal. -/
def FailureWritten (token : Token) (s : WaitState) : WaitAction → Prop
  | .outside (.writeSandboxFailure i _ .failed) =>
    ∀ task ∈ s.channel.fleet.task i, task.job.token = token → s.channel.RowTerminal token
  | _ => True

instance (token : Token) (s : WaitState) (a : WaitAction) : Decidable (FailureWritten token s a) := by
  cases a with
  | outside b =>
    cases b with
    | writeSandboxFailure i elapsed reply =>
      cases reply with
      | failed =>
        exact inferInstanceAs (Decidable (∀ task ∈ s.channel.fleet.task i, task.job.token = token →
          ∃ r ∈ s.channel.fleet.rows, r.token = token ∧ r.status.isTerminal = true))
      | _ => exact isTrue trivial
    | _ => exact isTrue trivial
  | _ => exact isTrue trivial

section Table

variable {s t : Fleet} {a : FleetAction}

/-- A terminal row stays terminal: only queued and processing rows are claimed or swept, and what is written over
a row is terminal itself. -/
theorem FleetInv.terminal_stays (h : FleetInv s) (hstep : s.step a = some t) {r : Row} (hr : r ∈ s.rows)
    (hterminal : r.status.isTerminal = true) : ∃ r' ∈ t.rows, r'.token = r.token ∧ r'.status.isTerminal = true := by
  have kept (hmem : r ∈ t.rows) : ∃ r' ∈ t.rows, r'.token = r.token ∧ r'.status.isTerminal = true :=
    ⟨r, hmem, rfl, hterminal⟩
  have updated {condition : Row → Bool} {f : Row → Row} (htoken : (f r).token = r.token)
      (hf : condition r = true → (f r).status.isTerminal = true) :
      ∃ r' ∈ updateWhere condition f s.rows, r'.token = r.token ∧ r'.status.isTerminal = true := by
    obtain ⟨r', hr', ⟨_, rfl⟩ | ⟨hselected, rfl⟩⟩ := @exists_mem_updateWhere _ condition f _ _ hr
    · exact ⟨r', hr', rfl, hterminal⟩
    · exact ⟨f r, hr', htoken, hf hselected⟩
  have claimed {next : Row} (hnext : next ∈ s.rows) (hqueued : next.status = .queued) (workerId : String) :
      ∃ r' ∈ updateWhere (fun r => r.token == next.token) (Row.claim s.now workerId) s.rows,
        r'.token = r.token ∧ r'.status.isTerminal = true := by
    refine updated rfl fun hselected => ?_
    obtain rfl := eq_of_key_eq h.tokens hr hnext (beq_iff_eq.mp hselected)
    rw [hqueued] at hterminal
    cases hterminal
  cases Fleet.effect_of_step hstep with
  | insert new hfresh => exact kept (List.mem_append_left _ hr)
  | claim workerId locked next hnext hqueued => exact claimed hnext hqueued workerId
  | claimLost workerId locked next hnext hqueued => exact claimed hnext hqueued workerId
  | claimFailed => exact kept hr
  | publishProcessing i ok task htask hphase => exact kept hr
  | execute i result task htask hphase => exact kept hr
  | executeFailed i task htask hphase => exact kept hr
  | writeResult i reply hcommitted task htask result hphase =>
    exact updated rfl fun _ => h.isTerminal_of_writing htask hphase
  | writeResultFailed i task htask result hphase => exact kept hr
  | writeSandboxFailure i elapsed reply hcommitted task htask hphase => exact updated rfl fun _ => rfl
  | writeSandboxFailureFailed i elapsed task htask hphase => exact kept hr
  | publishFinished i ok task htask status hphase => exact kept hr
  | crash i task htask => exact kept hr
  | sweep =>
    refine updated rfl fun hstale => ?_
    rw [Row.status_of_stale hstale] at hterminal
    cases hterminal
  | tick elapsed hnonneg => exact kept hr

/-- Where a task after a step comes from: it was there, claimed a row, moved on without an end to announce, wrote its
row, or failed to write a failure. -/
inductive TaskOrigin (s : Fleet) (a : FleetAction) (t : Fleet) (task : Task) : Prop
  | same (old : Task) (hold : old ∈ s.tasks) (hjob : task.job = old.job) (hphase : task.phase = old.phase)
  | claimed (hrow : task.job.token ∈ s.rows.map Row.token) (hphase : task.phase = .claimed)
  | moved (old : Task) (hold : old ∈ s.tasks) (hjob : task.job = old.job)
    (hphase : ∀ status, task.phase ≠ .publishing status)
  | wrote (old : Task) (hold : old ∈ s.tasks) (hjob : task.job = old.job) (f : Row → Row)
    (hrows : t.rows = updateWhere (fun r => r.token == old.job.token) f s.rows)
    (hterminal : ∀ r, (f r).token = r.token ∧ (f r).status.isTerminal = true)
  | unwritten (i : ℕ) (elapsed : ℚ) (old : Task) (hold : s.task i = some old) (hjob : task.job = old.job)
    (haction : a = .writeSandboxFailure i elapsed .failed)

/-- Every task has one of these origins. -/
theorem FleetInv.taskOrigin_of_step (h : FleetInv s) (hstep : s.step a = some t) {task : Task}
    (htask : task ∈ t.tasks) : TaskOrigin s a t task := by
  have same (hmem : task ∈ s.tasks) : TaskOrigin s a t task := .same task hmem rfl rfl
  have replaced {i : ℕ} {new : Task} (hmem : task ∈ (s.setTask i new).tasks)
      (hnew : task = new → TaskOrigin s a t task) : TaskOrigin s a t task :=
    (mem_tasks_setTask hmem).elim hnew same
  have mem {i : ℕ} {old : Task} (hold : s.task i = some old) : old ∈ s.tasks :=
    List.mem_of_getElem? (Fleet.getElem_of_task hold).1
  -- a task that is replaced by one with no end to announce
  have moved {i : ℕ} {old new : Task} (hmem : task ∈ (s.setTask i new).tasks) (hold : s.task i = some old)
      (hjob : new.job = old.job) (hphase : ∀ status, new.phase ≠ .publishing status) : TaskOrigin s a t task :=
    replaced hmem fun heq => .moved old (mem hold) (heq ▸ hjob) (heq ▸ hphase)
  cases Fleet.effect_of_step hstep with
  | insert new hfresh => exact same htask
  | claim workerId locked next hnext hqueued =>
    rcases List.mem_append.mp htask with hkept | hnew
    · exact same hkept
    · obtain rfl := List.mem_singleton.mp hnew
      exact .claimed (List.mem_map_of_mem hnext) rfl
  | claimLost workerId locked next hnext hqueued => exact same htask
  | claimFailed => exact same htask
  | publishProcessing i ok old hold hphase => exact moved htask hold rfl (by simp)
  | execute i result old hold hphase => exact moved htask hold rfl (by simp)
  | executeFailed i old hold hphase => exact moved htask hold rfl (by simp)
  | writeResult i reply hcommitted old hold result hphase =>
    refine replaced htask ?_
    rintro rfl
    exact .wrote old (mem hold) rfl _ rfl fun r => ⟨rfl, h.isTerminal_of_writing hold hphase⟩
  | writeResultFailed i old hold result hphase => exact moved htask hold rfl (by simp)
  | writeSandboxFailure i elapsed reply hcommitted old hold hphase =>
    refine replaced htask ?_
    rintro rfl
    exact .wrote old (mem hold) rfl _ rfl fun r => ⟨rfl, rfl⟩
  | writeSandboxFailureFailed i elapsed old hold hphase =>
    refine replaced htask ?_
    rintro rfl
    exact .unwritten i elapsed old hold rfl rfl
  | publishFinished i ok old hold status hphase => exact moved htask hold rfl (by simp)
  | crash i old hold =>
    refine replaced htask ?_
    rintro rfl
    exact .same old (mem hold) rfl rfl
  | sweep => exact same htask
  | tick elapsed hnonneg => exact same htask

/-- Only a task that is about to announce it broadcasts an end. -/
theorem publishing_of_published {token : Token} {status : Status}
    (hpublished : s.published a = some (token, .finished status)) :
    ∃ task ∈ s.tasks, task.job.token = token ∧ task.phase = .publishing status := by
  unfold Fleet.published at hpublished
  split at hpublished
  · obtain ⟨task, _, hevent⟩ := Option.map_eq_some_iff.mp hpublished
    cases hevent
  · split at hpublished
    · rename_i task htask
      split at hpublished <;> cases hpublished
      rename_i hphase
      exact ⟨task, List.mem_of_getElem? (Fleet.getElem_of_task htask).1, rfl, hphase⟩
    · cases hpublished
  · cases hpublished

end Table

/-- Rows are well formed, tasks have rows, and the row of the submission is terminal where a task is about to announce
its end or an announced end is pending. -/
structure Channel.Backed (token : Token) (c : Channel) : Prop where
  fleet : FleetInv c.fleet
  claimed : ∀ task ∈ c.fleet.tasks, task.job.token ∈ c.fleet.rows.map Row.token
  due : ∀ task ∈ c.fleet.tasks, task.job.token = token → ∀ status, task.phase = .publishing status →
    c.RowTerminal token
  pending : c.FinishPending → c.RowTerminal token

/-- Nothing is announced yet. -/
theorem Channel.backed_init (token : Token) : Channel.init.Backed token where
  fleet := FleetInv.init
  claimed task htask := by cases htask
  due task htask := by cases htask
  pending hpending := by
    obtain ⟨status, hstatus⟩ := hpending
    cases hstatus

section Observe

variable {token : Token} {c d : Channel} {a : FleetAction}

/-- A terminal row stays terminal. -/
theorem Channel.RowTerminal.observe (h : c.RowTerminal token) (hinv : FleetInv c.fleet)
    (hstep : c.observe token a = some d) : d.RowTerminal token := by
  obtain ⟨r, hr, htoken, hterminal⟩ := h
  obtain ⟨r', hr', hsame, hbehind⟩ := hinv.terminal_stays (Channel.observe_spec hstep).1 hr hterminal
  exact ⟨r', hr', hsame.trans htoken, hbehind⟩

/-- The write of a task leaves the row of its token terminal. -/
theorem Channel.rowTerminal_of_written (hrow : token ∈ c.fleet.rows.map Row.token) {f : Row → Row}
    (hrows : d.fleet.rows = updateWhere (fun r => r.token == token) f c.fleet.rows)
    (hterminal : ∀ r, (f r).token = r.token ∧ (f r).status.isTerminal = true) : d.RowTerminal token := by
  obtain ⟨old, htoken, hmem⟩ := exists_rewritten_of_key hrow f
  rw [← hrows] at hmem
  exact ⟨f old, hmem, (hterminal old).1.trans htoken, (hterminal old).2⟩

/-- A step outside the handler keeps the announcements backed, if a failure of the submission that it cannot write
finds the row terminal. -/
theorem Channel.Backed.observe (h : c.Backed token) (hjudged : Judged a)
    (hwritten : ∀ i elapsed, a = .writeSandboxFailure i elapsed .failed →
      ∀ task ∈ c.fleet.task i, task.job.token = token → c.RowTerminal token)
    (hstep : c.observe token a = some d) : d.Backed token := by
  obtain ⟨hfleet, hheard⟩ := Channel.observe_spec hstep
  have stays (hrow : c.RowTerminal token) : d.RowTerminal token := hrow.observe h.fleet hstep
  refine ⟨h.fleet.of_step hjudged hfleet, fun task htask => ?_, fun task htask hmine status hpublishing => ?_, ?_⟩
  · cases h.fleet.taskOrigin_of_step hfleet htask with
    | same old hold hjob hphase => exact hjob ▸ Fleet.mem_tokens_of_step hfleet (h.claimed old hold)
    | claimed hrow hphase => exact Fleet.mem_tokens_of_step hfleet hrow
    | moved old hold hjob hphase => exact hjob ▸ Fleet.mem_tokens_of_step hfleet (h.claimed old hold)
    | wrote old hold hjob f hrows hterminal => exact hjob ▸ Fleet.mem_tokens_of_step hfleet (h.claimed old hold)
    | unwritten i elapsed old hold hjob haction =>
      exact hjob ▸ Fleet.mem_tokens_of_step hfleet (h.claimed old (List.mem_of_getElem? (Fleet.getElem_of_task hold).1))
  · cases h.fleet.taskOrigin_of_step hfleet htask with
    | same old hold hjob hphase => exact stays (h.due old hold (hjob ▸ hmine) status (hphase ▸ hpublishing))
    | claimed hrow hphase =>
      rw [hphase] at hpublishing
      cases hpublishing
    | moved old hold hjob hphase => exact absurd hpublishing (hphase status)
    | wrote old hold hjob f hrows hterminal =>
      rw [hjob] at hmine
      subst hmine
      exact Channel.rowTerminal_of_written (h.claimed old hold) hrows hterminal
    | unwritten i elapsed old hold hjob haction => exact stays (hwritten i elapsed haction old hold (hjob ▸ hmine))
  · rintro ⟨status, hstatus⟩
    rcases hheard with ⟨event, hpublished, hlistener, _⟩ | ⟨_, hlistener, _⟩
    · rw [hlistener] at hstatus
      rcases Listener.mem_of_notify hstatus with hbefore | rfl
      · exact stays (h.pending ⟨status, hbefore⟩)
      · obtain ⟨task, htask, hmine, hphase⟩ := publishing_of_published hpublished
        exact stays (h.due task htask hmine status hphase)
    · rw [hlistener] at hstatus
      exact stays (h.pending ⟨status, hstatus⟩)

end Observe

/-- The same table, and nothing pending that was not pending before. -/
def Channel.Within (d c : Channel) : Prop :=
  d.fleet = c.fleet ∧ ∀ event ∈ d.listener.pending, event ∈ c.listener.pending

/-- A channel is within itself. -/
theorem Channel.Within.refl (c : Channel) : c.Within c := ⟨rfl, fun _ h => h⟩

/-- The announcements stay backed where nothing is added. -/
theorem Channel.Backed.within {token : Token} {c d : Channel} (h : c.Backed token) (hwithin : d.Within c) :
    d.Backed token := by
  obtain ⟨hfleet, hpending⟩ := hwithin
  have hrow : d.RowTerminal token ↔ c.RowTerminal token := by
    unfold Channel.RowTerminal
    rw [hfleet]
  refine ⟨hfleet ▸ h.fleet, hfleet ▸ h.claimed, fun task htask hmine status hphase => ?_, fun hfinish => ?_⟩
  · rw [hfleet] at htask
    exact hrow.mpr (h.due task htask hmine status hphase)
  · obtain ⟨status, hstatus⟩ := hfinish
    exact hrow.mpr (h.pending ⟨status, hpending _ hstatus⟩)

/-- The handler heard of the end and is about to read the row. -/
def WaitPc.heard : WaitPc → Bool
  | .finishing _ => true
  | _ => false

/-- Whatever submission the handler answers with is done, or was read after the end was heard or the wait given up. -/
def WaitState.Answers (s t : WaitState) : Prop :=
  ∀ sub, t.pc = .returned (.ok (some sub)) → sub.isDone = true ∨ s.pc.heard = true ∨ s.pc = .timedOut

/-- What a step does: one outside the handler, the insert of the submission, or one of the handler that adds nothing
to the channel, and goes on to read an ended submission only if an end was pending. -/
inductive WaitState.Move (new : NewSubmission) (s : WaitState) (a : WaitAction) (t : WaitState) : Prop
  | outside (b : FleetAction) (haction : a = .outside b) (hobserve : s.channel.observe new.token b = some t.channel)
    (hpc : t.pc = s.pc)
  | inserts (c : Channel) (hobserve : s.channel.observe new.token (.insert new) = some c) (hwithin : t.channel.Within c)
    (hpc : t.pc.heard = false) (hanswers : s.Answers t)
  | handler (hwithin : t.channel.Within s.channel) (hpc : t.pc.heard = true → s.channel.FinishPending)
    (hanswers : s.Answers t)

section Move

variable {new : NewSubmission} {s t : WaitState} {a : WaitAction}

/-- A client that is answered. -/
theorem WaitState.Move.respond {response : Except ApiError (Option Submission)}
    (hanswers : s.Answers (s.respond response)) : s.Move new a (s.respond response) :=
  .handler ⟨rfl, fun event h => (by cases h)⟩ (fun h => (by cases h)) hanswers

/-- A client that is answered an error. -/
theorem WaitState.answers_error (s : WaitState) (c : Channel) (e : ApiError) : s.Answers ⟨c, .returned (.error e)⟩ :=
  fun sub h => (by cases h)

/-- A handler that goes on without having heard of an end. -/
theorem WaitState.Move.go {next : WaitPc} (hnext : next.heard = false)
    (hopen : ∀ response, next ≠ .returned response) : s.Move new a { s with pc := next } :=
  .handler (.refl _) (fun h => (by rw [hnext] at h; cases h)) fun sub h => absurd h (hopen _)

/-- A handler that answers with a submission that is done, or goes on. -/
theorem WaitState.Move.respondIfDone (fetched : Except ApiError (Option Submission)) {next : WaitPc}
    (hnext : next.heard = false) (hopen : ∀ response, next ≠ .returned response) :
    s.Move new a (s.respondIfDone fetched next) := by
  unfold WaitState.respondIfDone
  split
  · exact .respond (s.answers_error _ _)
  · split
    · rename_i hdone
      refine .respond fun sub h => Or.inl ?_
      cases h
      exact hdone
    · exact .go hnext hopen
  · exact .go hnext hopen

/-- The insert of the submission, however the statement ends. -/
theorem WaitState.Move.insert (reply : Reply) : s.Move new a (s.insert new reply) := by
  unfold WaitState.insert
  split
  · rename_i channel hobserve
    exact .inserts channel hobserve (.refl _) rfl fun sub h => (by cases h)
  · rename_i channel hobserve
    exact .inserts channel hobserve ⟨rfl, fun event h => (by cases h)⟩ rfl (s.answers_error _ _)
  · exact .respond (s.answers_error _ _)
  · exact .respond (s.answers_error _ _)

/-- Every step is one of these. -/
theorem WaitState.move_of_step (hstep : s.step new a = some t) : s.Move new a t := by
  unfold WaitState.step at hstep
  split at hstep
  · obtain ⟨channel, hobserve, rfl⟩ := Option.map_eq_some_iff.mp hstep
    exact .outside _ rfl hobserve rfl
  · rename_i reply _
    cases hstep
    exact .insert reply
  · split at hstep <;> cases hstep
    · exact .go rfl (by simp)
    · exact .respond (s.answers_error _ _)
  · split at hstep <;> cases hstep
    · exact .handler ⟨rfl, fun event h => h⟩ (fun h => (by cases h)) fun sub h => (by cases h)
    · exact .go rfl (by simp)
  · rename_i ok subscribed _
    cases hstep
    cases subscribed with
    | true => exact .respondIfDone _ rfl (by simp)
    | false => exact .respondIfDone _ rfl (by simp)
  · cases hstep
    split
    · exact .go rfl (by simp)
    · exact .go rfl (by simp)
  · obtain ⟨⟨event, listener⟩, hnext, rfl⟩ := Option.map_eq_some_iff.mp hstep
    have hpending := Listener.pending_of_next hnext
    refine .handler ⟨rfl, fun other hother => ?_⟩ (fun hheard => ?_) fun sub h => ?_
    · rw [hpending]
      exact List.mem_cons_of_mem event hother
    · cases event with
      | finished status => exact ⟨status, by rw [hpending]; exact List.mem_cons_self⟩
      | processing => cases hheard
      | stdoutChunk data => cases hheard
      | stderrChunk data => cases hheard
    · cases event <;> cases h
  · cases hstep
    exact .go rfl (by simp)
  · split at hstep <;> cases hstep
    exact .go rfl (by simp)
  · rename_i hpc
    have hheard : s.pc.heard = true := by rw [hpc]; rfl
    split at hstep <;> cases hstep
    · exact .respond (s.answers_error _ _)
    · exact .respond fun sub h => Or.inr (Or.inl hheard)
    · exact .go rfl (by simp)
  · split at hstep <;> cases hstep
    · exact .go rfl (by simp)
    · exact .respondIfDone _ rfl (by simp)
  · rename_i hpc
    cases hstep
    exact .respond fun sub h => Or.inr (Or.inr hpc)
  · cases hstep

end Move

/-- The announcements are backed, and a handler that heard of the end has a terminal row. -/
structure HeardInv (token : Token) (s : WaitState) : Prop where
  channel : s.channel.Backed token
  heard : s.pc.heard = true → s.channel.RowTerminal token

/-- Nothing was heard before the submission is inserted. -/
theorem heardInv_init (token : Token) : HeardInv token .init :=
  ⟨Channel.backed_init token, fun h => (by cases h)⟩

/-- Every step keeps the invariant as long as a failure that is not written finds the row terminal. -/
theorem step_heardInv (new : NewSubmission) (s : WaitState) (a : WaitAction) (t : WaitState)
    (h : HeardInv new.token s) (hmeets : JudgedWait a ∧ FailureWritten new.token s a) (hstep : s.step new a = some t) :
    HeardInv new.token t := by
  obtain ⟨hjudged, hwritten⟩ := hmeets
  cases WaitState.move_of_step hstep with
  | outside b haction hobserve hpc =>
    subst haction
    refine ⟨h.channel.observe hjudged ?_ hobserve, fun hheard => ?_⟩
    · rintro i elapsed rfl
      exact hwritten
    · rw [hpc] at hheard
      exact (h.heard hheard).observe h.channel.fleet hobserve
  | inserts c hobserve hwithin hpc hanswers =>
    have hinsert : Judged (.insert new) := trivial
    have hbacked : c.Backed new.token := h.channel.observe hinsert (fun i elapsed haction => by cases haction) hobserve
    exact ⟨hbacked.within hwithin, fun hheard => by rw [hpc] at hheard; cases hheard⟩
  | handler hwithin hpc hanswers =>
    have hbacked : t.channel.Backed new.token := h.channel.within hwithin
    refine ⟨hbacked, fun hheard => ?_⟩
    obtain ⟨r, hr, hterminal⟩ := h.channel.pending (hpc hheard)
    exact ⟨r, hwithin.1 ▸ hr, hterminal⟩

/-- An open handler answers with a submission that is done, or that it read after the end or the wait was over. -/
theorem WaitState.answers_of_step {new : NewSubmission} {s t : WaitState} {a : WaitAction}
    (hopen : ∀ response, s.pc ≠ .returned response) (hstep : s.step new a = some t) : s.Answers t := by
  cases WaitState.move_of_step hstep with
  | outside b haction hobserve hpc =>
    intro sub h
    rw [hpc] at h
    exact absurd h (hopen _)
  | inserts c hobserve hwithin hpc hanswers => exact hanswers
  | handler hwithin hpc hanswers => exact hanswers

/-- In every run in which a sandbox failure that cannot be written finds the row terminal, a client whose handler heard
of the end is answered a submission that is done, and an open one is answered only where the wait was given up. -/
theorem heard_end_isDone {new : NewSubmission} {s t : WaitState} {a : WaitAction} {sub : Submission}
    (hreached : Reaches (WaitState.step new) (fun s a => JudgedWait a ∧ FailureWritten new.token s a) .init s)
    (hopen : ∀ response, s.pc ≠ .returned response) (hstep : s.step new a = some t)
    (hreturned : t.pc = .returned (.ok (some sub))) :
    (∀ deadline, s.pc = .finishing deadline → sub.isDone = true) ∧ (sub.isDone = false → s.pc = .timedOut) := by
  have hinv : HeardInv new.token s := hreached.invariant _ (heardInv_init new.token) (step_heardInv new)
  have hdone (hheard : s.pc.heard = true) : sub.isDone = true := by
    obtain ⟨r, hr, htoken, hterminal⟩ := hinv.heard hheard
    obtain ⟨_, _, hfetch⟩ := WaitState.fetched_of_returned hopen hstep hreturned
    rw [isDone_of_fetchSubmission hinv.channel.fleet.tokens hfetch hr htoken]
    exact hterminal
  refine ⟨fun deadline hpc => hdone (by rw [hpc]; rfl), fun hnot => ?_⟩
  rcases WaitState.answers_of_step hopen hstep sub hreturned with hsaid | hheard | htimedOut
  · rw [hnot] at hsaid
    cases hsaid
  · rw [hdone hheard] at hnot
    cases hnot
  · exact htimedOut

/-- A client parks, a worker claims its submission, and its task ends in a failure that it cannot write; the handler
hears of the end that the task announces. -/
def hearUnwritten (new : NewSubmission) (execution : List FleetAction) : List WaitAction :=
  [.insert .acknowledged, .notify true, .subscribe true, .fetch true, .enter,
    .outside (.claim "w" [] new.token .acknowledged), .outside (.publishProcessing 0 true)] ++
    execution.map .outside ++
    [.outside (.writeSandboxFailure 0 1 .failed), .outside (.publishFinished 0 true), .receive, .enter, .receive]

/-- What a client reads of the blank submission while it is being processed. -/
def processingSubmission : Submission where
  token := 7
  languageId := 71
  status := .processing
  limits := .default
  stdout := none
  stderr := none
  compileOutput := none
  exitCode := none
  signal := none
  cpuTime := none
  compileTime := none
  wallTime := none
  memoryKb := none
  createdAt := 0
  finishedAt := none

/-- What a client reads of it once it is accepted. -/
def acceptedSubmission : Submission :=
  { processingSubmission with
    status := .accepted
    stdout := some [111, 107, 10]
    stderr := some []
    exitCode := some 0
    cpuTime := some (asSecs 0)
    wallTime := some (asSecs 0)
    memoryKb := some 0
    finishedAt := some 0 }

/-- The task wrote a result, and learned only that the connection was lost. -/
def lostResult : List FleetAction := [.execute 0 (some acceptedResult), .writeResult 0 .lost]

/-- The handler that heard of the end of that task. -/
def lostResultHeard : WaitState := lastState (WaitState.step (.blank 7)) .init (hearUnwritten (.blank 7) lostResult)

/-- Its client is answered the result that was written. -/
theorem heard_end_isDone_lostResult :
    lostResultHeard.pc = .finishing 30 ∧
      lostResultHeard.step (.blank 7) (.fetch true) = some (lostResultHeard.respond (.ok (some acceptedSubmission))) ∧
        acceptedSubmission.isDone = true := by
  have hrun : runActions (checkedStep (WaitState.step (.blank 7)) (FailureWritten 7)) .init
      (hearUnwritten (.blank 7) lostResult) = some lostResultHeard := by decide +kernel
  have hjudged : ∀ a ∈ hearUnwritten (.blank 7) lostResult, JudgedWait a := by
    have hreturned : Returned acceptedResult := .naive (.ran true (some 0)) rfl
    simpa [hearUnwritten, lostResult, JudgedWait, Judged] using hreturned
  have hpc : lostResultHeard.pc = .finishing 30 := by decide +kernel
  have hstep : lostResultHeard.step (.blank 7) (.fetch true) =
      some (lostResultHeard.respond (.ok (some acceptedSubmission))) := by decide +kernel
  have hreached := (Reaches.of_runActions_forall _ hjudged hrun).of_checkedStep
  exact ⟨hpc, hstep, (heard_end_isDone hreached (by simp [hpc]) hstep rfl).1 30 hpc⟩

/-- The handler that heard of the end of a task whose sandbox failed, and that could not write it. -/
def unwrittenHeard : WaitState :=
  lastState (WaitState.step (.blank 7)) .init (hearUnwritten (.blank 7) [.execute 0 none])

/-- Its client is answered a submission that is still being processed. -/
theorem heard_end_open :
    ¬ ∀ (new : NewSubmission) (s t : WaitState) (a : WaitAction) (deadline : ℚ) (sub : Submission),
      Reaches (WaitState.step new) (fun _ a => JudgedWait a) .init s → s.pc = .finishing deadline →
        s.step new a = some t → t.pc = .returned (.ok (some sub)) → sub.isDone = true := by
  intro hclaim
  have hreached : Reaches (WaitState.step (.blank 7)) (fun _ a => JudgedWait a) .init unwrittenHeard :=
    .of_runActions_forall (hearUnwritten (.blank 7) [.execute 0 none]) (by simp [hearUnwritten, JudgedWait, Judged])
      (runActions_eq_lastState (by decide +kernel))
  have hpc : unwrittenHeard.pc = .finishing 30 := by decide +kernel
  have hstep : unwrittenHeard.step (.blank 7) (.fetch true) =
      some (unwrittenHeard.respond (.ok (some processingSubmission))) := by decide +kernel
  cases hclaim (.blank 7) unwrittenHeard _ (.fetch true) 30 processingSubmission hreached hpc hstep rfl

end ZeroCode.Api
