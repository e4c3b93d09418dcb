import ZeroCode.Worker.Fleet

/-!
# Terminal rows

Once a row is terminal a client stops polling it. Neither write of a worker looks at the
row it overwrites, so what keeps a terminal row as it is can only be that no task is left
that would write it: a row is not claimed while the task of an earlier claim may still
write, and a task that wrote a result does not go on to write a failure. The first breaks
when the sweeper returns a live claim to the queue, the second when the acknowledgement of
a committed result is lost.
-/

namespace ZeroCode.Worker

open ZeroCode.Core ZeroCode.Foundation ZeroCode.Sandbox

/-- The task has a write of its row in front of it. -/
def Task.mayWrite (task : Task) : Bool :=
  !task.crashed && match task.phase with
    | .claimed | .executing | .writing _ | .failing => true
    | .publishing _ | .done => false

/-- No row is claimed while another task may still write it, and no acknowledgement of a
committed result is lost. -/
def Orderly (s : Fleet) : FleetAction → Prop
  | .claim _ _ token .acknowledged => ∀ task ∈ s.tasks, task.mayWrite = true → task.job.token ≠ token
  | .writeResult _ reply => reply ≠ .lost
  | _ => True

instance (s : Fleet) (a : FleetAction) : Decidable (Orderly s a) :=
  match a with
  | .claim _ _ token .acknowledged =>
    inferInstanceAs (Decidable (∀ task ∈ s.tasks, task.mayWrite = true → task.job.token ≠ token))
  | .writeResult _ reply => inferInstanceAs (Decidable (reply ≠ .lost))
  | .claim _ _ _ .lost | .claim _ _ _ .failed | .insert _ | .publishProcessing _ _ | .execute _ _
  | .writeSandboxFailure _ _ _ | .publishFinished _ _ | .crash _ | .sweep | .tick _ => isTrue trivial

/-- Every task that may write is the only one for its token, and its row is not terminal. -/
structure FinalityInv (s : Fleet) : Prop where
  tokens : (s.rows.map Row.token).Nodup
  unfinished : ∀ (i : ℕ) (task : Task), s.tasks[i]? = some task → task.mayWrite = true →
    ∀ r ∈ s.rows, r.token = task.job.token → r.status.isTerminal = false
  alone : ∀ (i j : ℕ) (task other : Task), s.tasks[i]? = some task → s.tasks[j]? = some other → task.mayWrite = true →
    other.mayWrite = true → task.job.token = other.job.token → i = j

/-- The invariant holds of the empty table. -/
theorem finalityInv_init : FinalityInv Fleet.init := by
  refine ⟨List.nodup_nil, fun i task htask => ?_, fun i j task other htask => ?_⟩ <;>
  · simp [Fleet.init] at htask

/-- A task that moves on without new rights keeps the invariant. -/
theorem FinalityInv.setTask {s : Fleet} (h : FinalityInv s) {i : ℕ} {old new : Task} (hold : s.tasks[i]? = some old)
    (hjob : new.job = old.job) (hwrite : new.mayWrite = true → old.mayWrite = true) :
    FinalityInv (s.setTask i new) := by
  have transfer {j : ℕ} {task : Task} (htask : (s.setTask i new).tasks[j]? = some task)
      (hmay : task.mayWrite = true) :
      ∃ before, s.tasks[j]? = some before ∧ before.mayWrite = true ∧ before.job = task.job := by
    rcases Fleet.getElem_setTask hold htask with ⟨rfl, rfl⟩ | ⟨_, hsame⟩
    · exact ⟨old, hold, hwrite hmay, hjob.symm⟩
    · exact ⟨task, hsame, hmay, rfl⟩
  refine ⟨h.tokens, fun j task htask hmay r hr htoken => ?_, fun j k task other htask hother hmay hmay' htoken => ?_⟩
  · obtain ⟨before, hbefore, hmay, hsame⟩ := transfer htask hmay
    exact h.unfinished j before hbefore hmay r hr (by rw [hsame, htoken])
  · obtain ⟨before, hbefore, hmay, hsame⟩ := transfer htask hmay
    obtain ⟨before', hbefore', hmay', hsame'⟩ := transfer hother hmay'
    exact h.alone j k before before' hbefore hbefore' hmay hmay' (by rw [hsame, hsame', htoken])

/-- An update that leaves the rows it rewrites unfinished keeps the invariant. -/
theorem FinalityInv.updateRows {s : Fleet} (h : FinalityInv s) {condition : Row → Bool} {f : Row → Row}
    (htoken : ∀ r, (f r).token = r.token) (hopen : ∀ r, (f r).status.isTerminal = false) :
    FinalityInv { s with rows := updateWhere condition f s.rows } := by
  refine ⟨?_, fun i task htask hmay r hr hrow => ?_, h.alone⟩
  · dsimp only
    rw [map_key_updateWhere htoken]
    exact h.tokens
  · rcases mem_updateWhere hr with ⟨hold, _⟩ | ⟨old, _, _, rfl⟩
    · exact h.unfinished i task htask hmay r hold hrow
    · exact hopen old

/-- A task that writes its row and gives up its right to write keeps the invariant. -/
theorem FinalityInv.write {s : Fleet} (h : FinalityInv s) {i : ℕ} {old new : Task} (hold : s.tasks[i]? = some old)
    (hmay : old.mayWrite = true) (hjob : new.job = old.job) (hdone : new.mayWrite = false) {f : Row → Row}
    (htoken : ∀ r, (f r).token = r.token) :
    FinalityInv { s.setTask i new with rows := updateWhere (fun r => r.token == old.job.token) f s.rows } := by
  have hset := h.setTask hold hjob (fun hnew => by rw [hdone] at hnew; cases hnew)
  refine ⟨?_, fun j task htask hmay' r hr hrow => ?_, hset.alone⟩
  · dsimp only
    rw [map_key_updateWhere htoken]
    exact h.tokens
  · rcases mem_updateWhere hr with ⟨hkept, _⟩ | ⟨before, _, hselected, rfl⟩
    · exact hset.unfinished j task htask hmay' r hkept hrow
    -- the writer is the only task for the row, and it may not write again
    · rcases Fleet.getElem_setTask hold htask with ⟨_, rfl⟩ | ⟨hne, hsame⟩
      · rw [hdone] at hmay'
        cases hmay'
      · have hsameToken : task.job.token = old.job.token := by
          rw [← hrow, htoken]
          exact beq_iff_eq.mp hselected
        exact absurd (h.alone j i task old hsame hold hmay' hmay hsameToken) hne

/-- A new submission keeps the invariant: it is queued. -/
theorem FinalityInv.insert {s : Fleet} (h : FinalityInv s) {new : NewSubmission}
    (hfresh : new.token ∉ s.rows.map Row.token) : FinalityInv { s with rows := s.rows ++ [new.row s.now] } := by
  refine ⟨nodup_tokens_insert h.tokens hfresh, fun i task htask hmay r hr hrow => ?_, h.alone⟩
  rcases List.mem_append.mp hr with hold | hnew
  · exact h.unfinished i task htask hmay r hold hrow
  · rw [List.mem_singleton.mp hnew]
    rfl

/-- A claimed row gets a task of its own, if no other task may still write it. -/
theorem FinalityInv.claim {s : Fleet} (h : FinalityInv s) {new : Task}
    (halone : ∀ task ∈ s.tasks, task.mayWrite = true → task.job.token ≠ new.job.token)
    (hopen : ∀ r ∈ s.rows, r.token = new.job.token → r.status.isTerminal = false) :
    FinalityInv { s with tasks := s.tasks ++ [new] } := by
  have split {i : ℕ} {task : Task} (htask : (s.tasks ++ [new])[i]? = some task) :
      s.tasks[i]? = some task ∨ (i = s.tasks.length ∧ task = new) := by
    rw [List.getElem?_append] at htask
    split at htask
    · exact Or.inl htask
    · rename_i hge
      right
      have hi : i - s.tasks.length = 0 := by
        by_contra hne
        rw [List.getElem?_eq_none (by simp; omega)] at htask
        cases htask
      rw [hi] at htask
      exact ⟨by omega, by simpa using htask.symm⟩
  refine ⟨h.tokens, fun i task htask hmay r hr hrow => ?_, fun i j task other htask hother hmay hmay' htoken => ?_⟩
  · rcases split htask with hold | ⟨_, rfl⟩
    · exact h.unfinished i task hold hmay r hr hrow
    · exact hopen r hr hrow
  · rcases split htask with hold | ⟨hi, rfl⟩ <;> rcases split hother with hold' | ⟨hj, rfl⟩
    · exact h.alone i j task other hold hold' hmay hmay' htoken
    · exact absurd htoken (halone task (List.mem_of_getElem? hold) hmay)
    · exact absurd htoken.symm (halone other (List.mem_of_getElem? hold') hmay')
    · rw [hi, hj]

/-- A task that has not published yet may write, unless it crashed. -/
theorem Fleet.mayWrite_of_task {s : Fleet} {i : ℕ} {task : Task} (htask : s.task i = some task)
    (hpublishing : ∀ status, task.phase ≠ .publishing status) (hdone : task.phase ≠ .done) :
    task.mayWrite = true := by
  have hcrashed := (Fleet.getElem_of_task htask).2
  cases hphase : task.phase with
  | claimed => simp [Task.mayWrite, hcrashed, hphase]
  | executing => simp [Task.mayWrite, hcrashed, hphase]
  | writing result => simp [Task.mayWrite, hcrashed, hphase]
  | failing => simp [Task.mayWrite, hcrashed, hphase]
  | publishing status => exact absurd hphase (hpublishing status)
  | done => exact absurd hphase hdone

/-- A task that has not published yet, and moves on, keeps the invariant. -/
theorem FinalityInv.move {s : Fleet} (h : FinalityInv s) {i : ℕ} {old new : Task} (hold : s.task i = some old)
    (hjob : new.job = old.job) (hpublishing : ∀ status, old.phase ≠ .publishing status) (hdone : old.phase ≠ .done) :
    FinalityInv (s.setTask i new) :=
  h.setTask (Fleet.getElem_of_task hold).1 hjob fun _ => Fleet.mayWrite_of_task hold hpublishing hdone

/-- Every orderly step keeps the invariant. -/
theorem step_finalityInv (s : Fleet) (a : FleetAction) (t : Fleet) (h : FinalityInv s) (horderly : Orderly s a)
    (hstep : s.step a = some t) : FinalityInv t := by
  cases Fleet.effect_of_step hstep with
  | insert new hfresh => exact h.insert hfresh
  | claim workerId locked next hnext hqueued =>
    have hrows : FinalityInv { s with
        rows := updateWhere (fun r => r.token == next.token) (Row.claim s.now workerId) s.rows } :=
      h.updateRows (fun r => rfl) fun r => rfl
    refine hrows.claim horderly fun r hr hrow => ?_
    rcases mem_updateWhere hr with ⟨_, hother⟩ | ⟨old, _, _, rfl⟩
    · simp [hrow, Row.claimedJob] at hother
    · rfl
  | claimLost workerId locked next hnext hqueued => exact h.updateRows (fun r => rfl) fun r => rfl
  | claimFailed => exact h
  | publishProcessing i ok task htask hphase =>
    exact h.move htask rfl (by simp [hphase]) (by simp [hphase])
  | execute i result task htask hphase =>
    exact h.move htask rfl (by simp [hphase]) (by simp [hphase])
  | executeFailed i task htask hphase =>
    exact h.move htask rfl (by simp [hphase]) (by simp [hphase])
  | writeResult i reply hcommitted task htask result hphase =>
    have hreply : reply = .acknowledged := by
      cases reply with
      | acknowledged => rfl
      | lost => exact absurd rfl horderly
      | failed => cases hcommitted
    refine h.write (Fleet.getElem_of_task htask).1
      (Fleet.mayWrite_of_task htask (by simp [hphase]) (by simp [hphase])) ?_ ?_ fun r => rfl
    · rfl
    · simp [Task.mayWrite, hreply]
  | writeResultFailed i task htask result hphase =>
    exact h.move htask rfl (by simp [hphase]) (by simp [hphase])
  | writeSandboxFailure i elapsed reply hcommitted task htask hphase =>
    refine h.write (Fleet.getElem_of_task htask).1
      (Fleet.mayWrite_of_task htask (by simp [hphase]) (by simp [hphase])) ?_ ?_ fun r => rfl
    · rfl
    · simp [Task.mayWrite]
  | writeSandboxFailureFailed i elapsed task htask hphase =>
    exact h.move htask rfl (by simp [hphase]) (by simp [hphase])
  | publishFinished i ok task htask status hphase =>
    exact h.setTask (Fleet.getElem_of_task htask).1 rfl fun hmay => by simp [Task.mayWrite] at hmay
  | crash i task htask =>
    exact h.setTask (Fleet.getElem_of_task htask).1 rfl fun hmay => by simp [Task.mayWrite] at hmay
  | sweep => exact h.updateRows (fun r => rfl) fun r => rfl
  | tick elapsed hnonneg => exact ⟨h.tokens, h.unfinished, h.alone⟩

/-- In a state of the invariant, every step leaves a terminal row as it is. -/
theorem FinalityInv.row_kept {s t : Fleet} {a : FleetAction} (h : FinalityInv s) (hstep : s.step a = some t)
    {r : Row} (hr : r ∈ s.rows) (hterminal : r.status.isTerminal = true) : r ∈ t.rows := by
  cases Fleet.rowsEffect_of_step hstep with
  | same hrows =>
    rw [hrows]
    exact hr
  | inserted new hfresh hrows =>
    rw [hrows]
    exact List.mem_append_left _ hr
  | reopened condition f hrows htoken hopen hselected =>
    rw [hrows]
    apply mem_updateWhere_of_not hr
    by_contra hmeets
    obtain ⟨old, hold, hsame, hbefore⟩ := hselected r hr (by simpa using hmeets)
    rw [eq_of_key_eq h.tokens hr hold hsame.symm, hbefore] at hterminal
    cases hterminal
  | written i task new f htask hphase hrows htoken htasks hjob hwrote hnext =>
    rw [hrows]
    apply mem_updateWhere_of_not hr
    by_contra hsame
    -- no task that may still write has the token of a terminal row
    have hmay : task.mayWrite = true := by
      rcases hphase with hfailing | ⟨result, hwriting⟩
      · exact Fleet.mayWrite_of_task htask (by simp [hfailing]) (by simp [hfailing])
      · exact Fleet.mayWrite_of_task htask (by simp [hwriting]) (by simp [hwriting])
    have hopen := h.unfinished i task (Fleet.getElem_of_task htask).1 hmay r hr (by simpa using hsame)
    rw [hterminal] at hopen
    cases hopen

/-- In every orderly run a terminal row stays as it is, and stays the only row of its token. -/
theorem terminal_row_final {s t : Fleet} {r : Row} (hreached : Reaches Fleet.step Orderly Fleet.init s)
    (hr : r ∈ s.rows) (hterminal : r.status.isTerminal = true) (hlater : Reaches Fleet.step Orderly s t) :
    r ∈ t.rows ∧ ∀ r' ∈ t.rows, r'.token = r.token → r' = r := by
  have hkept : r ∈ t.rows :=
    hreached.stable FinalityInv (fun u => r ∈ u.rows) finalityInv_init step_finalityInv
      (fun u a v hinv _ hstep hmem => hinv.row_kept hstep hmem hterminal) hlater hr
  have hinv := (hreached.trans hlater).invariant FinalityInv finalityInv_init step_finalityInv
  exact ⟨hkept, fun r' hr' htoken => eq_of_key_eq hinv.tokens hr' hkept htoken⟩

/-- The row of an accepted submission stays as it is when its task ends and the sweeper runs. -/
theorem terminal_row_final_accepted :
    ∃ t, runActions (checkedStep Fleet.step Orderly) Fleet.init (executeFirst 7 ++ [.writeResult 0 .acknowledged]) =
        some (acceptedFleet 7 (.publishing .accepted)) ∧
      runActions (checkedStep Fleet.step Orderly) (acceptedFleet 7 (.publishing .accepted))
        [.publishFinished 0 true, .sweep] = some t ∧
      acceptedRow 7 ∈ t.rows ∧ ∀ r' ∈ t.rows, r'.token = 7 → r' = acceptedRow 7 := by
  have hrun : runActions (checkedStep Fleet.step Orderly) Fleet.init
      (executeFirst 7 ++ [.writeResult 0 .acknowledged]) = some (acceptedFleet 7 (.publishing .accepted)) := rfl
  have hlater : runActions (checkedStep Fleet.step Orderly) (acceptedFleet 7 (.publishing .accepted))
      [.publishFinished 0 true, .sweep] = some _ := rfl
  exact ⟨_, hrun, hlater, terminal_row_final (.of_runActions _ hrun) (List.mem_singleton_self _) rfl
    (.of_runActions _ hlater)⟩

/-- A task whose result was written without an acknowledgement writes a sandbox failure over it. -/
theorem lostAcknowledgement_overwrites :
    Reachable Fleet.step Fleet.init (acceptedFleet 7 .failing) ∧
      ∃ t, (acceptedFleet 7 .failing).step (.writeSandboxFailure 0 1 .acknowledged) = some t ∧
        acceptedRow 7 ∉ t.rows ∧ ∀ r ∈ t.rows, r.status = .sandboxFailure :=
  ⟨.of_runActions (executeFirst 7 ++ [.writeResult 0 .lost]) rfl, _, rfl, by decide, by decide⟩

end ZeroCode.Worker
