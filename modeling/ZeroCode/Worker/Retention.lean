import ZeroCode.Api.Create
import ZeroCode.Api.RowInvariant

/-!
# Retention

Two statements age the table. The scrub blanks the payload columns of the rows that
finished before the payload TTL; it skips the rows that look blank already, and looks at
three of the five columns only. The expiry deletes the rows that finished before the row
TTL. What the scrub does not look at is empty whenever the rest is: every submission comes
with a source, and every result with its outputs.
-/

namespace ZeroCode.Worker

open ZeroCode.Api ZeroCode.Core ZeroCode.Foundation ZeroCode.Sandbox

/-- The two TTLs, in seconds. -/
structure RetentionConfig where
  payloadTtl : ℕ
  rowTtl : ℕ
  deriving DecidableEq, Repr

/-- The row finished longer ago than the TTL. -/
def Row.finishedBefore (now : ℚ) (ttl : ℕ) (r : Row) : Bool :=
  match r.finishedAt with
  | some finishedAt => finishedAt < now - ttl
  | none => false

/-- The columns by which the scrub recognises a row that still has its payload. -/
def Row.hasPayload (r : Row) : Bool := r.stdout.isSome || r.stderr.isSome || decide (0 < r.sourceCode.length)

/-- A row without its payload. -/
def Row.scrub (r : Row) : Row :=
  { r with sourceCode := [], stdin := none, stdout := none, stderr := none, compileOutput := none }

/-- Blank the payload of the rows that finished before the payload TTL. -/
def scrubPayloads (rows : List Row) (now : ℚ) (config : RetentionConfig) : List Row :=
  updateWhere (fun r => r.finishedBefore now config.payloadTtl && r.hasPayload) Row.scrub rows

/-- Delete the rows that finished before the row TTL. -/
def expireOldRows (rows : List Row) (now : ℚ) (config : RetentionConfig) : List Row :=
  rows.filter fun r => !r.finishedBefore now config.rowTtl

/-- A step of the workers and the API, or one of the two statements of the enforcer. -/
inductive StoreAction
  | fleet (a : FleetAction)
  | scrubPayloads (config : RetentionConfig)
  | expireOldRows (config : RetentionConfig)
  deriving DecidableEq, Repr

/-- One step of the system with retention. -/
def storeStep (s : Fleet) : StoreAction → Option Fleet
  | .fleet a => s.step a
  | .scrubPayloads config => some { s with rows := scrubPayloads s.rows s.now config }
  | .expireOldRows config => some { s with rows := expireOldRows s.rows s.now config }

/-- The handlers insert what they checked, and the workers write what a backend returned. -/
def Served : StoreAction → Prop
  | .fleet (.insert new) => Created new
  | .fleet a => Judged a
  | .scrubPayloads _ | .expireOldRows _ => True

/-- Where the scrub sees no payload there is none. -/
def Row.Blank (r : Row) : Prop := r.hasPayload = false → r.stdin = none ∧ r.compileOutput = none

/-- The rows are well formed, and none hides a payload from the scrub. -/
structure StoreInv (s : Fleet) : Prop where
  fleet : FleetInv s
  blank : ∀ r ∈ s.rows, r.Blank

/-- A row has no payload to recognise exactly when the three columns are empty. -/
theorem Row.hasPayload_eq_false {r : Row} :
    r.hasPayload = false ↔ r.stdout = none ∧ r.stderr = none ∧ r.sourceCode = [] := by
  simp [Row.hasPayload, and_assoc]

/-- A row with a source hides nothing. -/
theorem Row.Blank.of_source {r : Row} (hsource : r.sourceCode ≠ []) : r.Blank :=
  fun hnone => absurd (Row.hasPayload_eq_false.mp hnone).2.2 hsource

/-- No step of the workers and the API hides a payload. -/
theorem blank_of_step {s t : Fleet} {a : FleetAction} (h : ∀ r ∈ s.rows, r.Blank) (hserved : Served (.fleet a))
    (hstep : s.step a = some t) (r : Row) (hr : r ∈ t.rows) : r.Blank := by
  have rewritten {condition : Row → Bool} {f : Row → Row} (hrow : r ∈ updateWhere condition f s.rows)
      (hf : ∀ r, r.Blank → (f r).Blank) : r.Blank :=
    forall_mem_updateWhere h (fun old hold _ => hf old (h old hold)) r hrow
  cases Fleet.effect_of_step hstep with
  | insert new hfresh =>
    exact forall_mem_concat h (Row.Blank.of_source (Created.source_ne_nil hserved)) r hr
  | claim workerId locked next hnext hqueued => exact rewritten hr fun _ hblank => hblank
  | claimLost workerId locked next hnext hqueued => exact rewritten hr fun _ hblank => hblank
  | claimFailed => exact h r hr
  | publishProcessing i ok task htask hphase => exact h r hr
  | execute i result task htask hphase => exact h r hr
  | executeFailed i task htask hphase => exact h r hr
  | writeResult i reply hcommitted task htask result hphase =>
    -- the write sets the standard output, so the row has a payload
    refine rewritten hr fun _ _ hnone => ?_
    cases (Row.hasPayload_eq_false.mp hnone).1
  | writeResultFailed i task htask result hphase => exact h r hr
  | writeSandboxFailure i elapsed reply hcommitted task htask hphase =>
    exact rewritten hr fun _ hblank => hblank
  | writeSandboxFailureFailed i elapsed task htask hphase => exact h r hr
  | publishFinished i ok task htask status hphase => exact h r hr
  | crash i task htask => exact h r hr
  | sweep => exact rewritten hr fun _ hblank => hblank
  | tick elapsed hnonneg => exact h r hr

/-- A row that was scrubbed has nothing left to hide. -/
theorem Row.blank_scrub (r : Row) : r.scrub.Blank := fun _ => ⟨rfl, rfl⟩

/-- Scrubbing leaves the columns of the lifecycle alone. -/
theorem rowWellFormed_scrub {r : Row} (h : RowWellFormed r) : RowWellFormed r.scrub where
  queued := h.queued
  processing := h.processing
  terminal := h.terminal
  parses := h.parses

/-- Nothing is in the empty table. -/
theorem StoreInv.init : StoreInv Fleet.init where
  fleet := FleetInv.init
  blank r hr := by cases hr

/-- Scrubbing keeps the tokens. -/
theorem tokens_scrubPayloads (rows : List Row) (now : ℚ) (config : RetentionConfig) :
    (scrubPayloads rows now config).map Row.token = rows.map Row.token := by
  refine map_key_updateWhere ?_ rows
  exact fun r => rfl

/-- The scrub keeps the rows well formed. -/
theorem fleetInv_scrubPayloads {s : Fleet} (h : FleetInv s) (config : RetentionConfig) :
    FleetInv { s with rows := scrubPayloads s.rows s.now config } where
  tokens := (tokens_scrubPayloads s.rows s.now config).symm ▸ h.tokens
  rows := forall_mem_updateWhere h.rows fun r hr _ => rowWellFormed_scrub (h.rows r hr)
  results := h.results

/-- The expiry keeps the rows well formed: it only deletes. -/
theorem fleetInv_expireOldRows {s : Fleet} (h : FleetInv s) (config : RetentionConfig) :
    FleetInv { s with rows := expireOldRows s.rows s.now config } where
  tokens := h.tokens.sublist (List.filter_sublist.map Row.token)
  rows := fun r hr => h.rows r (List.mem_of_mem_filter hr)
  results := h.results

/-- Every step keeps the rows well formed, if the workers write what a backend returned. -/
theorem fleetInv_of_storeStep {s t : Fleet} {a : StoreAction} (h : FleetInv s)
    (hjudged : ∀ b, a = .fleet b → Judged b) (hstep : storeStep s a = some t) : FleetInv t := by
  cases a with
  | fleet a => exact h.of_step (hjudged a rfl) hstep
  | scrubPayloads config =>
    cases hstep
    exact fleetInv_scrubPayloads h config
  | expireOldRows config =>
    cases hstep
    exact fleetInv_expireOldRows h config

/-- What is served is judged. -/
theorem judged_of_served {a : FleetAction} (h : Served (.fleet a)) : Judged a := by
  cases a with
  | insert new => exact trivial
  | claim | publishProcessing | execute | writeResult | writeSandboxFailure | publishFinished | crash | sweep
  | tick => exact h

/-- Every step keeps the invariant. -/
theorem StoreInv.of_step {s t : Fleet} {a : StoreAction} (h : StoreInv s) (hserved : Served a)
    (hstep : storeStep s a = some t) : StoreInv t where
  fleet := fleetInv_of_storeStep h.fleet (fun _ ha => judged_of_served (ha ▸ hserved)) hstep
  blank := by
    cases a with
    | fleet a => exact blank_of_step h.blank hserved hstep
    | scrubPayloads config =>
      cases hstep
      exact forall_mem_updateWhere h.blank fun r _ _ => r.blank_scrub
    | expireOldRows config =>
      cases hstep
      exact fun r hr => h.blank r (List.mem_of_mem_filter hr)

/-- A row in which the scrub sees no payload is what the scrub would make of it. -/
theorem Row.scrub_eq_self {r : Row} (hblank : r.Blank) (hnone : r.hasPayload = false) : r.scrub = r := by
  obtain ⟨hstdin, hcompile⟩ := hblank hnone
  obtain ⟨hstdout, hstderr, hsource⟩ := Row.hasPayload_eq_false.mp hnone
  cases r
  simp_all [Row.scrub]

/-- Skipping the rows that look blank makes no difference. -/
theorem scrubPayloads_eq {rows : List Row} (hblank : ∀ r ∈ rows, r.Blank) (now : ℚ) (config : RetentionConfig) :
    scrubPayloads rows now config = updateWhere (Row.finishedBefore now config.payloadTtl) Row.scrub rows := by
  refine List.map_congr_left fun r hr => ?_
  cases hold : r.finishedBefore now config.payloadTtl with
  | false => simp [hold]
  | true =>
    cases hpayload : r.hasPayload with
    | false => simp [Row.scrub_eq_self (hblank r hr) hpayload]
    | true => simp [hold, hpayload]

/-- Only a terminal row has finished. -/
theorem isTerminal_of_finishedBefore {r : Row} (h : RowWellFormed r) {now : ℚ} {ttl : ℕ}
    (hold : r.finishedBefore now ttl = true) : r.status.isTerminal = true := by
  have finished (hnone : r.finishedAt = none) : False := by
    rw [Row.finishedBefore, hnone] at hold
    cases hold
  cases hstatus : r.status with
  | queued => exact (finished (h.queued hstatus).2.1).elim
  | processing => exact (finished (h.processing hstatus).2).elim
  | _ => rfl

/-- What a scrub does to a row: it blanks the payload of an old one, and touches nothing else. -/
structure Scrubbed (now : ℚ) (ttl : ℕ) (old new : Row) : Prop where
  blanked : old.finishedBefore now ttl = true →
    new.sourceCode = [] ∧ new.stdin = none ∧ new.stdout = none ∧ new.stderr = none ∧ new.compileOutput = none
  kept : old.finishedBefore now ttl = false → new = old
  others : { new with
    sourceCode := old.sourceCode
    stdin := old.stdin
    stdout := old.stdout
    stderr := old.stderr
    compileOutput := old.compileOutput } = old

/-- In every reachable table a scrub blanks all payload columns of the rows that finished before the payload
TTL and changes nothing else, and an expiry deletes exactly the rows that finished before the row TTL, of
which none is queued or being processed. -/
theorem retention_complete {s : Fleet} (reached : Reaches storeStep (fun _ a => Served a) Fleet.init s)
    (config : RetentionConfig) :
    List.Forall₂ (Scrubbed s.now config.payloadTtl) s.rows (scrubPayloads s.rows s.now config) ∧
      (expireOldRows s.rows s.now config).Sublist s.rows ∧
        (∀ r ∈ s.rows, r ∈ expireOldRows s.rows s.now config ↔ r.finishedBefore s.now config.rowTtl = false) ∧
          ∀ r ∈ s.rows, r.finishedBefore s.now config.rowTtl = true → r.status ≠ .queued ∧ r.status ≠ .processing := by
  have h : StoreInv s :=
    reached.invariant StoreInv StoreInv.init fun s a t hinv hserved hstep => hinv.of_step hserved hstep
  refine ⟨?_, List.filter_sublist, fun r hr => by simp [expireOldRows, hr], fun r hr hold => ?_⟩
  · rw [scrubPayloads_eq h.blank, updateWhere, List.forall₂_map_right_iff, List.forall₂_same]
    intro r hr
    cases hold : r.finishedBefore s.now config.payloadTtl with
    | false => exact ⟨by simp [hold], by simp, rfl⟩
    | true => exact ⟨fun _ => ⟨rfl, rfl, rfl, rfl, rfl⟩, by simp [hold], rfl⟩
  · have hterminal := isTerminal_of_finishedBefore (h.fleet.rows r hr) hold
    constructor
    · intro hstatus
      rw [hstatus] at hterminal
      cases hterminal
    · intro hstatus
      rw [hstatus] at hterminal
      cases hterminal

/-- A submission is created and executed, and more than an hour passes. -/
def agedRun : List StoreAction :=
  [.fleet (.insert (pythonRequest.newSubmission .default 7 none [])), .fleet (.claim "w" [] 7 .acknowledged),
    .fleet (.publishProcessing 0 true), .fleet (.execute 0 (some acceptedResult)), .fleet (.writeResult 0 .acknowledged),
    .fleet (.tick 4000)]

/-- The table after that run. -/
def agedFleet : Fleet := lastState storeStep Fleet.init agedRun

/-- The TTLs unless the environment sets others: an hour for the payloads, a day for the rows. -/
def defaultRetention : RetentionConfig := ⟨3600, 24 * 3600⟩

/-- The row of that table is past an hour. -/
theorem retention_complete_agedRun :
    (agedFleet.rows.map fun r => (r.status, r.finishedBefore agedFleet.now 3600)) = [(.accepted, true)] ∧
      List.Forall₂ (Scrubbed agedFleet.now 3600) agedFleet.rows
          (scrubPayloads agedFleet.rows agedFleet.now defaultRetention) ∧
        (expireOldRows agedFleet.rows agedFleet.now defaultRetention).Sublist agedFleet.rows ∧
          (∀ r ∈ agedFleet.rows, r ∈ expireOldRows agedFleet.rows agedFleet.now defaultRetention ↔
            r.finishedBefore agedFleet.now (24 * 3600) = false) ∧
            ∀ r ∈ agedFleet.rows, r.finishedBefore agedFleet.now (24 * 3600) = true →
              r.status ≠ .queued ∧ r.status ≠ .processing := by
  refine ⟨by decide +kernel, retention_complete (.of_runActions_forall agedRun ?_ ?_) defaultRetention⟩
  · intro a ha
    simp only [agedRun, List.mem_cons, List.not_mem_nil, or_false] at ha
    rcases ha with rfl | rfl | rfl | rfl | rfl | rfl
    · exact created_pythonRequest 7 none []
    · exact trivial
    · exact trivial
    · exact .naive (.ran true (some 0)) rfl
    · exact trivial
    · exact trivial
  · exact runActions_eq_lastState (by decide +kernel)

end ZeroCode.Worker
