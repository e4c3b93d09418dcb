import ZeroCode.Api.Submission
import ZeroCode.Sandbox.Backends
import ZeroCode.Worker.Fleet

/-!
# What a row can look like

The columns of the lifecycle go together: the status says which of the time columns are
set, and the two columns of the status hold one. Each of the five statements touches some
of these columns only, in any order and also from a task that lost its claim. A ledger
counts how often each token was claimed and how often the sweeper returned it: every claim
after the first needs a return of its own.
-/

namespace ZeroCode.Api

open ZeroCode.Core ZeroCode.Foundation ZeroCode.Sandbox ZeroCode.Worker

/-- The columns of the lifecycle agree with each other. -/
structure RowWellFormed (r : Row) : Prop where
  queued : r.status = .queued → r.claimedAt = none ∧ r.finishedAt = none ∧ r.statusDetail = none
  processing : r.status = .processing → r.claimedAt.isSome = true ∧ r.finishedAt = none
  terminal : r.status.isTerminal = true → r.finishedAt.isSome = true
  parses : ∃ status, parseStatus r.status r.statusDetail = .ok status

/-- What a worker writes as a result is what a backend returned. -/
def Judged : FleetAction → Prop
  | .execute _ (some result) => Returned result
  | _ => True

/-- The columns of a status are read back as that status. -/
theorem parseStatus_encodeStatus (s : Status) : parseStatus (encodeStatus s).1 (encodeStatus s).2 = .ok s := by
  rw [parseStatus, statusOfColumns_encodeStatus]

/-- Whether a status is terminal shows in its first column. -/
theorem isTerminal_encodeStatus (s : Status) : (encodeStatus s).1.isTerminal = s.isTerminal :=
  (isTerminal_of_statusOfColumns (statusOfColumns_encodeStatus s)).symm

/-- A terminal row with a finishing time and a readable status. -/
theorem RowWellFormed.of_terminal {r : Row} (hterminal : r.status.isTerminal = true)
    (hfinished : r.finishedAt.isSome = true) (hparses : ∃ status, parseStatus r.status r.statusDetail = .ok status) :
    RowWellFormed r where
  queued hstatus := by
    rw [hstatus] at hterminal
    cases hterminal
  processing hstatus := by
    rw [hstatus] at hterminal
    cases hterminal
  terminal _ := hfinished
  parses := hparses

/-- A new row. -/
theorem rowWellFormed_row (new : NewSubmission) (now : ℚ) : RowWellFormed (new.row now) where
  queued _ := ⟨rfl, rfl, rfl⟩
  processing hstatus := by cases hstatus
  terminal hterminal := by cases hterminal
  parses := ⟨.queued, rfl⟩

/-- A queued row that is claimed. -/
theorem RowWellFormed.claim {r : Row} (h : RowWellFormed r) (hqueued : r.status = .queued) (now : ℚ)
    (workerId : String) : RowWellFormed (r.claim now workerId) := by
  obtain ⟨_, hfinished, hdetail⟩ := h.queued hqueued
  refine ⟨fun hstatus => ?_, fun _ => ⟨rfl, hfinished⟩, fun hterminal => ?_, .processing, ?_⟩
  · cases hstatus
  · cases hterminal
  · change parseStatus .processing r.statusDetail = _
    rw [hdetail]
    rfl

/-- A stale row that is returned to the queue. -/
theorem RowWellFormed.sweep {r : Row} (h : RowWellFormed r) {now : ℚ} (hstale : r.stale now = true)
    (hdetail : r.statusDetail = none) :
    RowWellFormed { r with status := .queued, claimedAt := none, workerId := none } := by
  have hfinished := (h.processing (Row.status_of_stale hstale)).2
  refine ⟨fun _ => ⟨rfl, hfinished, hdetail⟩, fun hstatus => ?_, fun hterminal => ?_, .queued, ?_⟩
  · cases hstatus
  · cases hterminal
  · change parseStatus .queued r.statusDetail = _
    rw [hdetail]
    rfl

/-- A row that is being processed has no detail: no other pair of columns could be read. -/
theorem RowWellFormed.detail_of_processing {r : Row} (h : RowWellFormed r) (hstatus : r.status = .processing) :
    r.statusDetail = none := by
  obtain ⟨status, hparse⟩ := h.parses
  rw [hstatus] at hparse
  cases hdetail : r.statusDetail with
  | none => rfl
  | some detail =>
    rw [hdetail] at hparse
    cases hparse

/-- The tokens are unique, every row is well formed, and every result that waits to be written is one a
backend returned. -/
structure FleetInv (s : Fleet) : Prop where
  tokens : (s.rows.map Row.token).Nodup
  rows : ∀ r ∈ s.rows, RowWellFormed r
  results : ∀ task ∈ s.tasks, ∀ result, task.phase = .writing result → Returned result

/-- Nothing is in the empty table. -/
theorem FleetInv.init : FleetInv Fleet.init where
  tokens := List.nodup_nil
  rows r hr := by cases hr
  results task htask := by cases htask

/-- A result that waits to be written ends its row. -/
theorem FleetInv.isTerminal_of_writing {s : Fleet} (h : FleetInv s) {i : ℕ} {task : Task} (htask : s.task i = some task)
    {result : SandboxResult} (hphase : task.phase = .writing result) :
    (encodeStatus result.status).1.isTerminal = true := by
  have hreturned := h.results task (List.mem_of_getElem? (Fleet.getElem_of_task htask).1) result hphase
  rw [isTerminal_encodeStatus]
  exact Status.isTerminal_of_isVerdict hreturned.isVerdict

/-- A replaced task is the new one or one of the old. -/
theorem mem_tasks_setTask {s : Fleet} {i : ℕ} {new task : Task} (h : task ∈ (s.setTask i new).tasks) :
    task = new ∨ task ∈ s.tasks :=
  (List.mem_or_eq_of_mem_set h).symm

/-- A claim takes the one row with its token, which is queued. -/
theorem FleetInv.claim {s : Fleet} (h : FleetInv s) {next : Row} (hnext : next ∈ s.rows)
    (hqueued : next.status = .queued) (workerId : String) (r : Row)
    (hr : r ∈ updateWhere (fun r => r.token == next.token) (Row.claim s.now workerId) s.rows) : RowWellFormed r := by
  refine forall_mem_updateWhere h.rows (fun old hold hselected => ?_) r hr
  obtain rfl := eq_of_key_eq h.tokens hold hnext (beq_iff_eq.mp hselected)
  exact (h.rows old hold).claim hqueued _ _

/-- Every step keeps the rows well formed. -/
theorem FleetInv.rows_of_step {s t : Fleet} {a : FleetAction} (h : FleetInv s) (hstep : s.step a = some t) (r : Row)
    (hr : r ∈ t.rows) : RowWellFormed r := by
  cases Fleet.effect_of_step hstep with
  | insert new hfresh =>
    exact forall_mem_concat h.rows (rowWellFormed_row new s.now) r hr
  | claim workerId locked next hnext hqueued => exact h.claim hnext hqueued workerId r hr
  | claimLost workerId locked next hnext hqueued => exact h.claim hnext hqueued workerId r hr
  | claimFailed => exact h.rows r hr
  | publishProcessing i ok task htask hphase => exact h.rows r hr
  | execute i result task htask hphase => exact h.rows r hr
  | executeFailed i task htask hphase => exact h.rows r hr
  | writeResult i reply hcommitted task htask result hphase =>
    have hterminal := h.isTerminal_of_writing htask hphase
    exact forall_mem_updateWhere h.rows
      (fun _ _ _ => .of_terminal hterminal rfl ⟨_, parseStatus_encodeStatus result.status⟩) r hr
  | writeResultFailed i task htask result hphase => exact h.rows r hr
  | writeSandboxFailure i elapsed reply hcommitted task htask hphase =>
    exact forall_mem_updateWhere h.rows (fun _ _ _ => .of_terminal rfl rfl ⟨.sandboxFailure, rfl⟩) r hr
  | writeSandboxFailureFailed i elapsed task htask hphase => exact h.rows r hr
  | publishFinished i ok task htask status hphase => exact h.rows r hr
  | crash i task htask => exact h.rows r hr
  | sweep =>
    refine forall_mem_updateWhere h.rows (fun old hold hstale => ?_) r hr
    have hwell := h.rows old hold
    exact hwell.sweep hstale (hwell.detail_of_processing (Row.status_of_stale hstale))
  | tick elapsed hnonneg => exact h.rows r hr

/-- A result that waits to be written after a step did so before, or a backend just returned it. -/
theorem FleetInv.results_of_step {s t : Fleet} {a : FleetAction} (h : FleetInv s) (hjudged : Judged a)
    (hstep : s.step a = some t) (task : Task) (htask : task ∈ t.tasks) (result : SandboxResult)
    (hphase : task.phase = .writing result) : Returned result := by
  -- a replaced task that has no result in its hands
  have moved {i : ℕ} {new : Task} (hnew : ∀ result, new.phase ≠ .writing result)
      (hmem : task ∈ (s.setTask i new).tasks) : Returned result := by
    rcases mem_tasks_setTask hmem with rfl | hold
    · exact absurd hphase (hnew result)
    · exact h.results task hold result hphase
  cases Fleet.effect_of_step hstep with
  | insert new hfresh => exact h.results task htask result hphase
  | claim workerId locked next hnext hqueued =>
    rcases List.mem_append.mp htask with hold | hnew
    · exact h.results task hold result hphase
    · rw [List.mem_singleton.mp hnew] at hphase
      cases hphase
  | claimLost workerId locked next hnext hqueued => exact h.results task htask result hphase
  | claimFailed => exact h.results task htask result hphase
  | publishProcessing i ok old hold hphase' => exact moved (by simp) htask
  | execute i new old hold hphase' =>
    rcases mem_tasks_setTask htask with rfl | hkept
    · obtain rfl := TaskPhase.writing.inj hphase
      exact hjudged
    · exact h.results task hkept result hphase
  | executeFailed i old hold hphase' => exact moved (by simp) htask
  | writeResult i reply hcommitted old hold new hphase' => exact moved (by intro _; split <;> simp) htask
  | writeResultFailed i old hold new hphase' => exact moved (by simp) htask
  | writeSandboxFailure i elapsed reply hcommitted old hold hphase' => exact moved (by simp) htask
  | writeSandboxFailureFailed i elapsed old hold hphase' => exact moved (by simp) htask
  | publishFinished i ok old hold status hphase' => exact moved (by simp) htask
  | crash i old hold =>
    rcases mem_tasks_setTask htask with rfl | hkept
    · exact h.results old (List.mem_of_getElem? (Fleet.getElem_of_task hold).1) result hphase
    · exact h.results task hkept result hphase
  | sweep => exact h.results task htask result hphase
  | tick elapsed hnonneg => exact h.results task htask result hphase

/-- Every step keeps the invariant. -/
theorem FleetInv.of_step {s t : Fleet} {a : FleetAction} (h : FleetInv s) (hjudged : Judged a)
    (hstep : s.step a = some t) : FleetInv t where
  tokens := Fleet.nodup_tokens_of_step hstep h.tokens
  rows := h.rows_of_step hstep
  results := h.results_of_step hjudged hstep

/-- The system with a count, for each token, of its claims and of its returns by the sweeper. -/
structure Ledger where
  fleet : Fleet
  claims : Token → ℕ
  resets : Token → ℕ

/-- No claim was made yet. -/
def Ledger.init : Ledger := ⟨Fleet.init, fun _ => 0, fun _ => 0⟩

/-- A claim of this token took effect in the step. -/
def claimsOf (token : Token) : FleetAction → ℕ
  | .claim _ _ claimed reply => if reply.committed ∧ claimed = token then 1 else 0
  | _ => 0

/-- How many rows with this token the step returns to the queue. -/
def resetsOf (s : Fleet) (token : Token) : FleetAction → ℕ
  | .sweep => s.rows.countP fun r => r.stale s.now && r.token == token
  | _ => 0

/-- One step of the system, counted. -/
def Ledger.step (s : Ledger) (a : FleetAction) : Option Ledger :=
  (s.fleet.step a).map fun fleet =>
    { fleet := fleet
      claims := fun token => s.claims token + claimsOf token a
      resets := fun token => s.resets token + resetsOf s.fleet token a }

/-- A queued row leaves room for one more claim of its token, and a token without a row was never claimed. -/
structure LedgerInv (s : Ledger) : Prop where
  fleet : FleetInv s.fleet
  counted : ∀ r ∈ s.fleet.rows, s.claims r.token + (if r.status = .queued then 1 else 0) ≤ 1 + s.resets r.token
  absent : ∀ token, token ∉ s.fleet.rows.map Row.token → s.claims token = 0

/-- The ledger of the empty table. -/
theorem LedgerInv.init : LedgerInv Ledger.init where
  fleet := FleetInv.init
  counted r hr := by cases hr
  absent _ _ := rfl

/-- Only a claim that took effect is counted. -/
theorem claimsOf_le_one (token : Token) (a : FleetAction) : claimsOf token a ≤ 1 := by
  unfold claimsOf
  split
  · split <;> omega
  · omega

/-- A row that is swept is counted. -/
theorem one_le_resetsOf {s : Fleet} {r : Row} (hr : r ∈ s.rows) (hstale : r.stale s.now = true) :
    1 ≤ resetsOf s r.token .sweep :=
  List.countP_pos_iff.mpr ⟨r, hr, by simp [hstale]⟩

/-- A claim that took effect is counted for the row it took, whose place in the queue it used up. -/
theorem LedgerInv.counted_claim {s : Ledger} (h : LedgerInv s) {next : Row} (hnext : next ∈ s.fleet.rows)
    (hqueued : next.status = .queued) {a : FleetAction} (ha : ∀ token, token ≠ next.token → claimsOf token a = 0)
    {workerId : String} {r : Row}
    (hr : r ∈ updateWhere (fun r => r.token == next.token) (Row.claim s.fleet.now workerId) s.fleet.rows) :
    s.claims r.token + claimsOf r.token a + (if r.status = .queued then 1 else 0) ≤ 1 + s.resets r.token := by
  rcases mem_updateWhere hr with ⟨hold, hother⟩ | ⟨old, hold, hselected, rfl⟩
  · have hzero : claimsOf r.token a = 0 := ha r.token (by simpa using hother)
    rw [hzero]
    exact h.counted r hold
  · obtain rfl := eq_of_key_eq h.fleet.tokens hold hnext (beq_iff_eq.mp hselected)
    have hroom : s.claims old.token + 1 ≤ 1 + s.resets old.token := by simpa [hqueued] using h.counted old hold
    have hone := claimsOf_le_one old.token a
    change s.claims old.token + claimsOf old.token a + 0 ≤ 1 + s.resets old.token
    omega

/-- A write of a worker leaves the row out of the queue. -/
theorem LedgerInv.counted_written {s : Ledger} (h : LedgerInv s) {condition : Row → Bool} {f : Row → Row}
    (htoken : ∀ r, (f r).token = r.token) (hstatus : ∀ r, (f r).status ≠ .queued) {r : Row}
    (hr : r ∈ updateWhere condition f s.fleet.rows) :
    s.claims r.token + (if r.status = .queued then 1 else 0) ≤ 1 + s.resets r.token := by
  rcases mem_updateWhere hr with ⟨hold, _⟩ | ⟨old, hold, _, rfl⟩
  · exact h.counted r hold
  · rw [if_neg (hstatus old), htoken]
    have hcount := h.counted old hold
    omega

/-- A step keeps the count of every row. -/
theorem LedgerInv.counted_of_step {s : Ledger} {t : Fleet} {a : FleetAction} (h : LedgerInv s) (hjudged : Judged a)
    (hstep : s.fleet.step a = some t) (r : Row) (hr : r ∈ t.rows) :
    s.claims r.token + claimsOf r.token a + (if r.status = .queued then 1 else 0) ≤
      1 + (s.resets r.token + resetsOf s.fleet r.token a) := by
  cases Fleet.effect_of_step hstep with
  | insert new hfresh =>
    rcases List.mem_append.mp hr with hold | hnew
    · exact h.counted r hold
    · rw [List.mem_singleton.mp hnew]
      change s.claims new.token + 0 + 1 ≤ 1 + (s.resets new.token + 0)
      rw [h.absent new.token hfresh]
      omega
  | claim workerId locked next hnext hqueued =>
    refine h.counted_claim hnext hqueued (fun token hne => ?_) hr
    simp [claimsOf, Ne.symm hne]
  | claimLost workerId locked next hnext hqueued =>
    refine h.counted_claim hnext hqueued (fun token hne => ?_) hr
    simp [claimsOf, Ne.symm hne]
  | claimFailed => exact h.counted r hr
  | publishProcessing i ok task htask hphase => exact h.counted r hr
  | execute i result task htask hphase => exact h.counted r hr
  | executeFailed i task htask hphase => exact h.counted r hr
  | writeResult i reply hcommitted task htask result hphase =>
    refine h.counted_written ?_ ?_ hr
    · exact fun r => rfl
    intro r hqueued
    have hterminal := h.fleet.isTerminal_of_writing htask hphase
    rw [show (encodeStatus result.status).1 = .queued from hqueued] at hterminal
    cases hterminal
  | writeResultFailed i task htask result hphase => exact h.counted r hr
  | writeSandboxFailure i elapsed reply hcommitted task htask hphase =>
    refine h.counted_written ?_ ?_ hr
    · exact fun r => rfl
    · simp
  | writeSandboxFailureFailed i elapsed task htask hphase => exact h.counted r hr
  | publishFinished i ok task htask status hphase => exact h.counted r hr
  | crash i task htask => exact h.counted r hr
  | sweep =>
    rcases mem_updateWhere hr with ⟨hold, _⟩ | ⟨old, hold, hstale, rfl⟩
    · have hcount := h.counted r hold
      change s.claims r.token + 0 + _ ≤ _
      omega
    -- the row was being processed, and its return pays for the next claim
    · have hcount := h.counted old hold
      rw [Row.status_of_stale hstale] at hcount
      have hreset := one_le_resetsOf hold hstale
      change s.claims old.token + 0 + 1 ≤ _
      simp only [reduceCtorEq, if_false] at hcount
      change _ ≤ 1 + (s.resets old.token + resetsOf s.fleet old.token .sweep)
      omega
  | tick elapsed hnonneg => exact h.counted r hr

/-- A token without a row was not claimed by the step either. -/
theorem LedgerInv.absent_of_step {s : Ledger} {t : Fleet} {a : FleetAction} (h : LedgerInv s)
    (hstep : s.fleet.step a = some t) (token : Token) (habsent : token ∉ t.rows.map Row.token) :
    s.claims token + claimsOf token a = 0 := by
  have hnone : token ∉ s.fleet.rows.map Row.token := fun hold => habsent (Fleet.mem_tokens_of_step hstep hold)
  have hzero : s.claims token = 0 := h.absent token hnone
  -- only a row of the table is claimed
  have unclaimed {next : Row} (hnext : next ∈ s.fleet.rows) : next.token ≠ token := fun hsame =>
    hnone (hsame ▸ List.mem_map_of_mem hnext)
  cases Fleet.effect_of_step hstep with
  | claim workerId locked next hnext hqueued => simp [claimsOf, unclaimed hnext, hzero]
  | claimLost workerId locked next hnext hqueued => simp [claimsOf, unclaimed hnext, hzero]
  | claimFailed workerId locked claimed => simp [claimsOf, Reply.committed, hzero]
  | _ => exact hzero

/-- Every step keeps the ledger. -/
theorem LedgerInv.of_step {s t : Ledger} {a : FleetAction} (h : LedgerInv s) (hjudged : Judged a)
    (hstep : s.step a = some t) : LedgerInv t := by
  obtain ⟨fleet, hfleet, rfl⟩ := Option.map_eq_some_iff.mp hstep
  exact
    { fleet := h.fleet.of_step hjudged hfleet
      counted := h.counted_of_step hjudged hfleet
      absent := h.absent_of_step hfleet }

/-- In every run, every row is well formed, and no token was claimed more often than once and once more for
each time the sweeper returned it. -/
theorem rows_wellFormed_claims_exclusive {s : Ledger}
    (reached : Reaches Ledger.step (fun _ a => Judged a) Ledger.init s) :
    (∀ r ∈ s.fleet.rows, RowWellFormed r) ∧ ∀ token, s.claims token ≤ 1 + s.resets token := by
  have h : LedgerInv s :=
    reached.invariant LedgerInv LedgerInv.init fun s a t hinv hjudged hstep => hinv.of_step hjudged hstep
  refine ⟨h.fleet.rows, fun token => ?_⟩
  by_cases hrow : token ∈ s.fleet.rows.map Row.token
  · obtain ⟨r, hr, rfl⟩ := List.mem_map.mp hrow
    have hcount := h.counted r hr
    omega
  · rw [h.absent token hrow]
    omega

/-- A submission is executed, its claim goes stale while the task lives, and it is claimed again. -/
def reclaimedRun : List FleetAction :=
  executeFirst 7 ++ [.tick 1000, .sweep, .claim "v" [] 7 .acknowledged, .writeResult 0 .acknowledged]

/-- The ledger at the end of that run. -/
def reclaimedLedger : Ledger := lastState Ledger.step Ledger.init reclaimedRun

/-- In that run the token is claimed twice, after one return. -/
theorem rows_wellFormed_claims_exclusive_reclaimedRun :
    (reclaimedLedger.claims 7 = 2 ∧ reclaimedLedger.resets 7 = 1) ∧
      (∀ r ∈ reclaimedLedger.fleet.rows, RowWellFormed r) ∧
        ∀ token, reclaimedLedger.claims token ≤ 1 + reclaimedLedger.resets token := by
  have hrun : runActions Ledger.step Ledger.init reclaimedRun = some reclaimedLedger :=
    runActions_eq_lastState (by decide +kernel)
  refine ⟨by decide +kernel, rows_wellFormed_claims_exclusive (.of_runActions_forall reclaimedRun ?_ hrun)⟩
  intro a ha
  simp only [reclaimedRun, executeFirst, List.cons_append, List.nil_append, List.mem_cons, List.not_mem_nil,
    or_false] at ha
  rcases ha with rfl | rfl | rfl | rfl | rfl | rfl | rfl | rfl
  case inr.inr.inr.inl => exact .naive (.ran true (some 0)) rfl
  all_goals exact trivial

end ZeroCode.Api
