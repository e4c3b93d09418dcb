import ZeroCode.Worker.Retention

/-!
# What stays with a row

A row keeps the token, the time, the batch and the idempotency key it was inserted with:
the statements of the workers and of the retention write other columns, and only an expiry
makes a row disappear. Whatever is read from these columns alone changes with inserts and
expiries only.
-/

namespace ZeroCode.Worker

open ZeroCode.Api ZeroCode.Core ZeroCode.Foundation ZeroCode.Sandbox

/-- The columns by which a request finds its rows again. -/
structure RowIdentity where
  token : Token
  createdAt : ℚ
  batchId : Option String
  idempotencyKey : Option String
  idempotencyHash : Option Bytes
  deriving DecidableEq, Repr

/-- The identity of a row. -/
def Row.identity (r : Row) : RowIdentity :=
  ⟨r.token, r.createdAt, r.batchId, r.idempotencyKey, r.idempotencyHash⟩

/-- The workers and the sweeper write none of the columns the key is made of. -/
structure KeptByWorkers {K : Type*} (key : Row → K) : Prop where
  claim : ∀ now workerId r, key (Row.claim now workerId r) = key r
  writeResult : ∀ rows now token result, (writeResult rows now token result).map key = rows.map key
  writeSandboxFailure : ∀ rows now token elapsed, (writeSandboxFailure rows now token elapsed).map key = rows.map key
  sweepStale : ∀ rows now, (sweepStale rows now).map key = rows.map key

/-- Only an insert changes the keys of the table. -/
theorem KeptByWorkers.map_of_step {K : Type*} {key : Row → K} (h : KeptByWorkers key) {s t : Fleet} {a : FleetAction}
    (hstep : s.step a = some t) (hother : ∀ new, a ≠ .insert new) : t.rows.map key = s.rows.map key := by
  cases Fleet.effect_of_step hstep with
  | insert new hfresh => exact absurd rfl (hother new)
  | claim workerId locked next hnext hqueued => exact map_key_updateWhere (h.claim s.now workerId) s.rows
  | claimLost workerId locked next hnext hqueued => exact map_key_updateWhere (h.claim s.now workerId) s.rows
  | claimFailed => rfl
  | publishProcessing i ok task htask hphase => rfl
  | execute i result task htask hphase => rfl
  | executeFailed i task htask hphase => rfl
  | writeResult i reply hcommitted task htask result hphase => exact h.writeResult s.rows s.now task.job.token result
  | writeResultFailed i task htask result hphase => rfl
  | writeSandboxFailure i elapsed reply hcommitted task htask hphase =>
    exact h.writeSandboxFailure s.rows s.now task.job.token elapsed
  | writeSandboxFailureFailed i elapsed task htask hphase => rfl
  | publishFinished i ok task htask status hphase => rfl
  | crash i task htask => rfl
  | sweep => exact h.sweepStale s.rows s.now
  | tick elapsed hnonneg => rfl

/-- The identity is made of such columns. -/
theorem keptByWorkers_identity : KeptByWorkers Row.identity where
  claim _ _ _ := rfl
  writeResult rows _ _ _ := map_key_updateWhere (fun r => by rfl) rows
  writeSandboxFailure rows _ _ _ := map_key_updateWhere (fun r => by rfl) rows
  sweepStale rows _ := map_key_updateWhere (fun r => by rfl) rows

/-- The clock of the database does not go back. -/
theorem now_le_of_step {s t : Fleet} {a : FleetAction} (hstep : s.step a = some t) : s.now ≤ t.now := by
  cases Fleet.effect_of_step hstep with
  | tick elapsed hnonneg => exact le_add_of_nonneg_right hnonneg
  | insert | claim | claimLost | claimFailed | publishProcessing | execute | executeFailed | writeResult
  | writeResultFailed | writeSandboxFailure | writeSandboxFailureFailed | publishFinished | crash | sweep =>
    exact le_refl _

/-- What a step does to the identities in the table. -/
inductive IdentityEffect (s t : Fleet) : StoreAction → Prop
  | inserted (new : NewSubmission) (hfresh : new.token ∉ s.rows.map Row.token) (hnow : t.now = s.now)
    (hrows : t.rows = s.rows ++ [new.row s.now]) : IdentityEffect s t (.fleet (.insert new))
  | expired (config : RetentionConfig) (hnow : t.now = s.now) (hrows : t.rows = expireOldRows s.rows s.now config) :
    IdentityEffect s t (.expireOldRows config)
  | kept (a : StoreAction) (hnow : s.now ≤ t.now) (hrows : t.rows.map Row.identity = s.rows.map Row.identity) :
    IdentityEffect s t a

/-- Every step has one of these effects. -/
theorem identityEffect_of_step {s t : Fleet} {a : StoreAction} (hstep : storeStep s a = some t) :
    IdentityEffect s t a := by
  cases a with
  | fleet a =>
    have hfleet : s.step a = some t := hstep
    cases a with
    | insert new =>
      cases Fleet.effect_of_step hfleet with
      | insert new hfresh => exact .inserted new hfresh rfl rfl
    | claim | publishProcessing | execute | writeResult | writeSandboxFailure | publishFinished | crash | sweep
    | tick => exact .kept _ (now_le_of_step hfleet) (keptByWorkers_identity.map_of_step hfleet fun _ => nofun)
  | scrubPayloads config =>
    cases hstep
    exact .kept _ (le_refl _) (map_key_updateWhere (fun r => by rfl) s.rows)
  | expireOldRows config =>
    cases hstep
    exact .expired config rfl rfl

end ZeroCode.Worker
