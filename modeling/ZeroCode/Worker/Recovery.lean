import Mathlib.Data.List.MinMax
import ZeroCode.Worker.ClaimOrder

/-!
# Recovery

Whatever has happened to the workers so far, no submission is stuck: one fresh worker that
claims, executes and writes one row after the other finishes any of them. A row that is
being processed comes back to the queue once its claim is stale, and a queued row is
reached after those ahead of it. The other tasks need not take another step.
-/

namespace ZeroCode.Worker

open ZeroCode.Api ZeroCode.Core ZeroCode.Foundation ZeroCode.Sandbox

/-- The steps of time, of the sweeper, and of a worker that nothing fails and whose tasks begin at the given number. -/
def Recovers (workerId : String) (result : SandboxResult) (first : ℕ) (_ : Fleet) : StoreAction → Prop
  | .fleet (.claim claimant locked _ reply) => claimant = workerId ∧ locked = [] ∧ reply = .acknowledged
  | .fleet (.publishProcessing i _) | .fleet (.publishFinished i _) => first ≤ i
  | .fleet (.execute i outcome) => first ≤ i ∧ outcome = some result
  | .fleet (.writeResult i reply) => first ≤ i ∧ reply = .acknowledged
  | .fleet .sweep | .fleet (.tick _) => True
  | _ => False

variable {workerId : String} {result : SandboxResult} {first : ℕ}

/-- The steps of a recovery are judged if its result is one of a backend. -/
theorem judgedStore_of_recovers (hresult : Returned result) {s : Fleet} {a : StoreAction}
    (h : Recovers workerId result first s a) : JudgedStore a := by
  cases a with
  | fleet a =>
    cases a with
    | execute i outcome =>
      obtain ⟨-, rfl⟩ := h
      exact hresult
    | insert | claim | publishProcessing | writeResult | writeSandboxFailure | publishFinished | crash | sweep | tick =>
      trivial
  | scrubPayloads config => trivial
  | expireOldRows config => trivial

/-- A recovery keeps the tables well formed. -/
theorem fleetInv_of_recovery (hresult : Returned result) {s t : Fleet} (hinv : FleetInv s)
    (later : Reaches storeStep (Recovers workerId result first) s t) : FleetInv t :=
  later.invariant FleetInv hinv fun _ _ _ h hrecovers hstep =>
    fleetInv_of_storeStep h (fun _ ha => by subst ha; exact judgedStore_of_recovers hresult hrecovers) hstep

/-- Where a row is queued, there is an oldest queued row. -/
theorem exists_oldest {rows : List Row} {r : Row} (hr : r ∈ rows) (hqueued : r.status = .queued) :
    ∃ next ∈ rows, next.status = .queued ∧ ∀ old ∈ rows, old.status = .queued → next.createdAt ≤ old.createdAt := by
  have hmem : r ∈ rows.filter fun r => r.status == .queued := by simp [hr, hqueued]
  cases hmin : (rows.filter fun r => r.status == .queued).argmin Row.createdAt with
  | none =>
    rw [List.argmin_eq_none.mp hmin] at hmem
    cases hmem
  | some next =>
    have hnext := List.argmin_mem hmin
    rw [List.mem_filter, beq_iff_eq] at hnext
    exact ⟨next, hnext.1, hnext.2, fun old hold hstatus => List.le_of_mem_argmin (by simp [hold, hstatus]) hmin⟩

/-- An oldest queued row can be claimed. -/
theorem claimNext_oldest {rows : List Row} (hunique : (rows.map Row.token).Nodup) {next : Row} (hnext : next ∈ rows)
    (hqueued : next.status = .queued) (holdest : ∀ old ∈ rows, old.status = .queued → next.createdAt ≤ old.createdAt)
    (now : ℚ) (workerId : String) :
    claimNext rows now workerId [] next.token =
      some (updateWhere (fun r => r.token == next.token) (Row.claim now workerId) rows, next.claimedJob) := by
  have hfree (r : Row) : r.free [] = true ↔ r.status = .queued := by simp [Row.free]
  have hfind : (rows.find? fun r => r.token == next.token && r.free []) = some next := by
    rw [List.find?_eq_some_iff_append]
    obtain ⟨before, after, hsplit⟩ := List.append_of_mem hnext
    refine ⟨by simp [hfree, hqueued], before, after, hsplit, fun r hr => ?_⟩
    simp only [Bool.not_eq_true', Bool.and_eq_false_iff, beq_eq_false_iff_ne]
    refine .inl fun htoken => ?_
    rw [hsplit, List.map_append, List.map_cons] at hunique
    exact (List.nodup_append.mp hunique).2.2 r.token (List.mem_map_of_mem hr) next.token List.mem_cons_self htoken
  have hall : (rows.all fun r => !r.free [] || decide (next.createdAt ≤ r.createdAt)) = true := by
    rw [List.all_eq_true]
    intro r hr
    cases hrfree : r.free [] with
    | false => rfl
    | true => simpa using holdest r hr ((hfree r).mp hrfree)
  rw [claimNext, hfind]
  exact if_pos hall

/-- The task that was appended last. -/
theorem task_concat (now : ℚ) (rows : List Row) (tasks : List Task) (task : Task) (hcrashed : task.crashed = false) :
    (Fleet.mk now rows (tasks ++ [task])).task tasks.length = some task := by
  simp [Fleet.task, hcrashed]

/-- Replacing the task that was appended last. -/
theorem setTask_concat (now : ℚ) (rows : List Row) (tasks : List Task) (task new : Task) :
    (Fleet.mk now rows (tasks ++ [task])).setTask tasks.length new = ⟨now, rows, tasks ++ [new]⟩ := by
  simp [Fleet.setTask]

/-- A task of the worker executes its job, writes the result and says so. -/
theorem runs_job {now : ℚ} {rows : List Row} {tasks : List Task} {job : ClaimedJob} (hfirst : first ≤ tasks.length) :
    Reaches storeStep (Recovers workerId result first) ⟨now, rows, tasks ++ [⟨workerId, job, .claimed, false, false⟩]⟩
      ⟨now, writeResult rows now job.token result, tasks ++ [⟨workerId, job, .done, true, false⟩]⟩ := by
  have published : storeStep ⟨now, rows, tasks ++ [⟨workerId, job, .claimed, false, false⟩]⟩
      (.fleet (.publishProcessing tasks.length true)) =
        some ⟨now, rows, tasks ++ [⟨workerId, job, .executing, false, false⟩]⟩ := by
    simp [storeStep, Fleet.step, task_concat, setTask_concat]
  have executed : storeStep ⟨now, rows, tasks ++ [⟨workerId, job, .executing, false, false⟩]⟩
      (.fleet (.execute tasks.length (some result))) =
        some ⟨now, rows, tasks ++ [⟨workerId, job, .writing result, false, false⟩]⟩ := by
    simp [storeStep, Fleet.step, task_concat, setTask_concat]
  have written : storeStep ⟨now, rows, tasks ++ [⟨workerId, job, .writing result, false, false⟩]⟩
      (.fleet (.writeResult tasks.length .acknowledged)) =
        some ⟨now, writeResult rows now job.token result,
          tasks ++ [⟨workerId, job, .publishing result.status, true, false⟩]⟩ := by
    simp [storeStep, Fleet.step, task_concat, setTask_concat, Reply.committed]
  have finished : storeStep ⟨now, writeResult rows now job.token result,
        tasks ++ [⟨workerId, job, .publishing result.status, true, false⟩]⟩
      (.fleet (.publishFinished tasks.length true)) =
        some ⟨now, writeResult rows now job.token result, tasks ++ [⟨workerId, job, .done, true, false⟩]⟩ := by
    simp [storeStep, Fleet.step, task_concat, setTask_concat]
  refine .tail (.tail (.tail (.tail .refl ?_ published) ?_ executed) ?_ written) ?_ finished
  · exact hfirst
  · exact ⟨hfirst, rfl⟩
  · exact ⟨hfirst, rfl⟩
  · exact hfirst

/-- The worker serves an oldest queued row: afterwards its row has the result. -/
theorem serve {s : Fleet} (hunique : (s.rows.map Row.token).Nodup) (hfirst : first ≤ s.tasks.length) {next : Row}
    (hnext : next ∈ s.rows) (hqueued : next.status = .queued)
    (holdest : ∀ old ∈ s.rows, old.status = .queued → next.createdAt ≤ old.createdAt) :
    ∃ t, Reaches storeStep (Recovers workerId result first) s t ∧ first ≤ t.tasks.length ∧
      t.rows = writeResult (updateWhere (fun r => r.token == next.token) (Row.claim s.now workerId) s.rows) s.now
        next.token result := by
  have claimed : storeStep s (.fleet (.claim workerId [] next.token .acknowledged)) =
      some ⟨s.now, updateWhere (fun r => r.token == next.token) (Row.claim s.now workerId) s.rows,
        s.tasks ++ [⟨workerId, next.claimedJob, .claimed, false, false⟩]⟩ := by
    simp only [storeStep, Fleet.step, claimNext_oldest hunique hnext hqueued holdest]
  refine ⟨_, (Reaches.tail .refl ⟨rfl, rfl, rfl⟩ claimed).trans (runs_job hfirst), ?_, rfl⟩
  rw [List.length_append]
  omega

/-- The row of a written result has its status. -/
theorem exists_written {rows : List Row} {r : Row} (hr : r ∈ rows) (now : ℚ) (result : SandboxResult) :
    ∃ r' ∈ writeResult rows now r.token result, r'.token = r.token ∧ r'.status = (encodeStatus result.status).1 := by
  unfold writeResult
  exact ⟨_, mem_updateWhere_self hr (beq_self_eq_true r.token), rfl, rfl⟩

/-- A queued row is finished after those ahead of it. -/
theorem exists_finished_of_queued (hresult : Returned result) {s : Fleet} (hinv : FleetInv s)
    (hfirst : first ≤ s.tasks.length) {r : Row} (hr : r ∈ s.rows) (hqueued : r.status = .queued) :
    ∃ t, Reaches storeStep (Recovers workerId result first) s t ∧
      ∃ r' ∈ t.rows, r'.token = r.token ∧ r'.status.isTerminal = true := by
  -- by induction on how many rows are ahead
  induction hahead : ahead r s using Nat.strong_induction_on generalizing s with
  | h n ih =>
    obtain ⟨next, hnext, hnextQueued, holdest⟩ := exists_oldest hr hqueued
    obtain ⟨t, later, htasks, hrows⟩ :=
      @serve workerId result first s hinv.tokens hfirst next hnext hnextQueued holdest
    by_cases hsame : next.token = r.token
    -- it is its turn
    · obtain rfl := eq_of_key_eq hinv.tokens hnext hr hsame
      have hclaimed : next.claim s.now workerId ∈
          updateWhere (fun r => r.token == next.token) (Row.claim s.now workerId) s.rows :=
        mem_updateWhere_self hnext (beq_self_eq_true _)
      obtain ⟨r', hr', htoken, hstatus⟩ := exists_written hclaimed s.now result
      refine ⟨t, later, r', hrows ▸ hr', htoken, ?_⟩
      rw [hstatus, isTerminal_encodeStatus]
      exact Status.isTerminal_of_isVerdict hresult.isVerdict
    -- one of those ahead of it is finished, and it waits on
    · have hother : (r.token == next.token) = false := by simpa using Ne.symm hsame
      have hwaits : r ∈ t.rows := hrows ▸ mem_updateWhere_of_not (mem_updateWhere_of_not hr hother) hother
      have hterminal : (encodeStatus result.status).1.isTerminal = true :=
        (isTerminal_encodeStatus result.status).trans (Status.isTerminal_of_isVerdict hresult.isVerdict)
      have hfewer : ahead r t < ahead r s := by
        rw [ahead, hrows]
        exact lt_of_le_of_lt (ahead_writeResult hterminal)
          (ahead_claim ⟨r, hr, rfl, rfl, hqueued⟩ List.not_mem_nil hsame
            (claimNext_oldest hinv.tokens hnext hnextQueued holdest s.now workerId))
      obtain ⟨u, last, hfinished⟩ :=
        ih (ahead r t) (hahead ▸ hfewer) (fleetInv_of_recovery hresult hinv later) htasks hwaits rfl
      exact ⟨u, later.trans last, hfinished⟩

/-- Some time later the claim of a row is stale, and the sweeper returns the row to the queue. -/
theorem exists_requeued {s : Fleet} (hinv : FleetInv s) {r : Row} (hr : r ∈ s.rows) (hprocessing : r.status = .processing) :
    ∃ t, Reaches storeStep (Recovers workerId result first) s t ∧ t.tasks = s.tasks ∧
      ∃ r' ∈ t.rows, r'.token = r.token ∧ r'.status = .queued := by
  obtain ⟨claimedAt, hclaimedAt⟩ := Option.isSome_iff_exists.mp ((hinv.rows r hr).processing hprocessing).1
  let patience : ℚ := |claimedAt + (61 + 2 * r.wallTimeLimit) - s.now|
  have hstale : r.stale (s.now + patience) = true := by
    have hpatience : claimedAt + (61 + 2 * r.wallTimeLimit) - s.now ≤ patience := le_abs_self _
    have hpast : claimedAt < s.now + patience - (60 + 2 * r.wallTimeLimit) := by linarith
    simp [Row.stale, hprocessing, hclaimedAt, hpast]
  have waited : storeStep s (.fleet (.tick patience)) = some { s with now := s.now + patience } :=
    if_pos (abs_nonneg _)
  have swept : storeStep { s with now := s.now + patience } (.fleet .sweep) =
      some { s with now := s.now + patience, rows := sweepStale s.rows (s.now + patience) } := rfl
  refine ⟨_, .tail (.tail .refl ?_ waited) ?_ swept, rfl, _, mem_updateWhere_self hr hstale, rfl, rfl⟩
  · trivial
  · trivial

/-- From every reachable state every submission can still be finished, by time, the sweeper and one fresh worker alone,
which claims without finding anything locked: whichever tasks hang or have crashed, no row is stuck. -/
theorem every_row_can_finish {s : Fleet} (reached : Reaches storeStep (fun _ a => JudgedStore a) Fleet.init s) {r : Row}
    (hr : r ∈ s.rows) (workerId : String) (result : SandboxResult) (hresult : Returned result) :
    ∃ t, Reaches storeStep (Recovers workerId result s.tasks.length) s t ∧
      ∃ r' ∈ t.rows, r'.token = r.token ∧ r'.status.isTerminal = true := by
  have hinv := fleetInv_of_reaches reached
  by_cases hterminal : r.status.isTerminal = true
  · exact ⟨s, .refl, r, hr, rfl, hterminal⟩
  · by_cases hqueued : r.status = .queued
    · exact exists_finished_of_queued hresult hinv (le_refl _) hr hqueued
    · have hprocessing : r.status = .processing := by
        cases hstatus : r.status <;> simp_all [StatusKind.isTerminal]
      obtain ⟨t, later, htasks, r', hr', htoken, hqueued'⟩ :=
        @exists_requeued workerId result s.tasks.length s hinv r hr hprocessing
      obtain ⟨u, last, r'', hr'', htoken', hfinished⟩ :=
        @exists_finished_of_queued workerId result s.tasks.length hresult t
          (fleetInv_of_recovery hresult hinv later) (by rw [htasks]) r' hr' hqueued'
      exact ⟨u, later.trans last, r'', hr'', htoken'.trans htoken, hfinished⟩

/-- The second of two rows can be finished. -/
theorem every_row_can_finish_twoRows :
    ∃ t, Reaches storeStep (Recovers "w" acceptedResult (twoRows 1).tasks.length) (twoRows 1) t ∧
      ∃ r' ∈ t.rows, r'.token = ((NewSubmission.blank 2).row 1).token ∧ r'.status.isTerminal = true :=
  every_row_can_finish (s := twoRows 1) (reaches_twoRows (by decide +kernel)) (by decide +kernel) "w" acceptedResult
    (.naive (.ran true (some 0)) rfl)

end ZeroCode.Worker
