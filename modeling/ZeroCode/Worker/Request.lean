import ZeroCode.Worker.Identity

/-!
# What was requested

Of what a row is inserted with, the workers write nothing: the program, its input, its
limits and the callback URL stay as they are. The scrub blanks the program and its input,
and leaves the rest.
-/

namespace ZeroCode.Worker

open ZeroCode.Api ZeroCode.Core ZeroCode.Foundation ZeroCode.Sandbox

/-- The columns of a row that hold the request but for its program and its input. -/
structure RowTerms where
  token : Token
  languageId : ℕ
  cpuTimeLimit : ℚ
  wallTimeLimit : ℚ
  memoryLimitMb : ℕ
  maxPids : ℕ
  enableNetwork : Bool
  callbackUrl : Option String
  deriving DecidableEq, Repr

/-- The terms of a row. -/
def Row.terms (r : Row) : RowTerms :=
  ⟨r.token, r.languageId, r.cpuTimeLimit, r.wallTimeLimit, r.memoryLimitMb, r.maxPids, r.enableNetwork, r.callbackUrl⟩

/-- The terms of a row with its program and its input. -/
def Row.request (r : Row) : RowTerms × Bytes × Option Bytes := (r.terms, r.sourceCode, r.stdin)

/-- No worker writes a column of the request. -/
theorem keptByWorkers_request : KeptByWorkers Row.request where
  claim _ _ _ := rfl
  writeResult rows _ _ _ := map_key_updateWhere (fun r => by rfl) rows
  writeSandboxFailure rows _ _ _ := map_key_updateWhere (fun r => by rfl) rows
  sweepStale rows _ := map_key_updateWhere (fun r => by rfl) rows

/-- What a step does to the requests in the table. -/
inductive RequestEffect (s t : Fleet) : StoreAction → Prop
  | inserted (new : NewSubmission) (hfresh : new.token ∉ s.rows.map Row.token)
    (hrows : t.rows = s.rows ++ [new.row s.now]) : RequestEffect s t (.fleet (.insert new))
  | expired (config : RetentionConfig) (hrows : t.rows = expireOldRows s.rows s.now config) :
    RequestEffect s t (.expireOldRows config)
  | scrubbed (config : RetentionConfig) (hrows : t.rows = scrubPayloads s.rows s.now config) :
    RequestEffect s t (.scrubPayloads config)
  | kept (a : FleetAction) (hother : ∀ new, a ≠ .insert new)
    (hrows : t.rows.map Row.request = s.rows.map Row.request) : RequestEffect s t (.fleet a)

/-- Every step has one of these effects. -/
theorem requestEffect_of_step {s t : Fleet} {a : StoreAction} (hstep : storeStep s a = some t) :
    RequestEffect s t a := by
  cases a with
  | fleet a =>
    have hfleet : s.step a = some t := hstep
    by_cases hinsert : ∃ new, a = .insert new
    · obtain ⟨new, rfl⟩ := hinsert
      cases Fleet.effect_of_step hfleet with
      | insert new hfresh => exact .inserted new hfresh rfl
    · have hother : ∀ new, a ≠ .insert new := fun new hsame => hinsert ⟨new, hsame⟩
      exact .kept a hother (keptByWorkers_request.map_of_step hfleet hother)
  | scrubPayloads config =>
    cases hstep
    exact .scrubbed config rfl
  | expireOldRows config =>
    cases hstep
    exact .expired config rfl

/-- A row behind a step has the terms of a row before it, or was inserted by it. -/
theorem exists_terms_of_step {s t : Fleet} {a : StoreAction} (hstep : storeStep s a = some t) {r : Row}
    (hr : r ∈ t.rows) :
    (∃ old ∈ s.rows, old.terms = r.terms) ∨ ∃ new, a = .fleet (.insert new) ∧ r = new.row s.now := by
  cases requestEffect_of_step hstep with
  | inserted new hfresh hrows =>
    rw [hrows] at hr
    rcases List.mem_append.mp hr with hold | hnew
    · exact Or.inl ⟨r, hold, rfl⟩
    · exact Or.inr ⟨new, rfl, List.mem_singleton.mp hnew⟩
  | expired config hrows =>
    rw [hrows] at hr
    exact Or.inl ⟨r, List.mem_of_mem_filter hr, rfl⟩
  | scrubbed config hrows =>
    rw [hrows] at hr
    rcases mem_updateWhere hr with ⟨hold, _⟩ | ⟨old, hold, _, rfl⟩
    · exact Or.inl ⟨r, hold, rfl⟩
    · exact Or.inl ⟨old, hold, rfl⟩
  | kept a hother hrows =>
    have hrequest : r.request ∈ s.rows.map Row.request := hrows ▸ List.mem_map_of_mem hr
    obtain ⟨old, hold, hsame⟩ := List.mem_map.mp hrequest
    exact Or.inl ⟨old, hold, congrArg Prod.fst hsame⟩

/-- The retention leaves a finished row alone for at least this long. -/
def KeptFor (patience : ℚ) : StoreAction → Prop
  | .scrubPayloads config => patience ≤ config.payloadTtl
  | .expireOldRows config => patience ≤ config.rowTtl
  | .fleet _ => True

instance (patience : ℚ) (a : StoreAction) : Decidable (KeptFor patience a) :=
  match a with
  | .scrubPayloads config => inferInstanceAs (Decidable (patience ≤ config.payloadTtl))
  | .expireOldRows config => inferInstanceAs (Decidable (patience ≤ config.rowTtl))
  | .fleet _ => isTrue trivial

/-- The row still holds the whole request of a submission inserted at this time, and has not finished before. -/
structure Row.Holds (new : NewSubmission) (created : ℚ) (r : Row) : Prop where
  request : r.request = (new.row created).request
  finished : ∀ finishedAt, r.finishedAt = some finishedAt → created ≤ finishedAt

/-- A row is not old before its time. -/
theorem Row.Holds.not_finishedBefore {new : NewSubmission} {created now patience : ℚ} {ttl : ℕ} {r : Row}
    (h : r.Holds new created) (hnow : now ≤ created + patience) (httl : patience ≤ ttl) :
    r.finishedBefore now ttl = false := by
  unfold Row.finishedBefore
  cases hfinished : r.finishedAt with
  | none => rfl
  | some finishedAt =>
    have hcreated : created ≤ finishedAt := h.finished finishedAt hfinished
    simp only [decide_eq_false_iff_not, not_lt]
    linarith

/-- As long as the retention leaves a row alone, it holds its request, whatever the workers do to it. -/
theorem Row.Holds.of_step {s t : Fleet} {a : StoreAction} {new : NewSubmission} {created patience : ℚ} {r : Row}
    (h : r.Holds new created) (hr : r ∈ s.rows) (hpast : created ≤ s.now) (hnow : s.now ≤ created + patience)
    (hkept : KeptFor patience a) (hstep : storeStep s a = some t) : ∃ r' ∈ t.rows, r'.Holds new created := by
  have rewritten {condition : Row → Bool} {f : Row → Row} (hf : (f r).Holds new created) :
      ∃ r' ∈ updateWhere condition f s.rows, r'.Holds new created := by
    obtain ⟨r', hr', ⟨_, rfl⟩ | ⟨_, rfl⟩⟩ := exists_mem_updateWhere hr
    · exact ⟨_, hr', h⟩
    · exact ⟨_, hr', hf⟩
  cases a with
  | scrubPayloads config =>
    cases hstep
    refine ⟨r, mem_updateWhere_of_not hr ?_, h⟩
    rw [h.not_finishedBefore hnow hkept, Bool.false_and]
  | expireOldRows config =>
    cases hstep
    refine ⟨r, List.mem_filter.mpr ⟨hr, ?_⟩, h⟩
    rw [h.not_finishedBefore hnow hkept]
    rfl
  | fleet a =>
    have hfleet : s.step a = some t := hstep
    cases Fleet.effect_of_step hfleet with
    | insert new' hfresh => exact ⟨r, List.mem_append_left _ hr, h⟩
    | claim workerId locked next hnext hqueued => exact rewritten ⟨h.request, h.finished⟩
    | claimLost workerId locked next hnext hqueued => exact rewritten ⟨h.request, h.finished⟩
    | sweep => exact rewritten ⟨h.request, h.finished⟩
    | writeResult i reply hcommitted task htask result hphase =>
      refine rewritten ⟨h.request, ?_⟩
      rintro _ ⟨⟩
      exact hpast
    | writeSandboxFailure i elapsed reply hcommitted task htask hphase =>
      refine rewritten ⟨h.request, ?_⟩
      rintro _ ⟨⟩
      exact hpast
    | claimFailed | publishProcessing | execute | executeFailed | writeResultFailed | writeSandboxFailureFailed
    | publishFinished | crash | tick => exact ⟨r, hr, h⟩

end ZeroCode.Worker
