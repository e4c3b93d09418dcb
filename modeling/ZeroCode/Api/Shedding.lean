import ZeroCode.Api.BatchCreate
import ZeroCode.Api.BatchSingle

/-!
# Shedding load

Above the limit of the queue a request for one submission is turned away before its
insert. The handler of a batch does not look at the depth of the queue: a batch that passes
its checks inserts a row for each of its test cases, however long the queue is. The other
endpoints only read.
-/

namespace ZeroCode.Api

open ZeroCode.Core ZeroCode.Foundation ZeroCode.Sandbox ZeroCode.Worker

/-- The endpoints whose handlers run no statement but queries. -/
inductive ReadEndpoint
  | liveness
  | readiness
  | about
  | openapi
  | statuses
  | languageHealth
  | metrics
  | listSubmissions
  | getSubmission
  | streamSubmission
  | getBatch
  | listLanguages
  | webFiles
  deriving DecidableEq, Repr

/-- A request to any endpoint. -/
inductive ApiRequest
  | submission (c : Creation)
  | batch (b : BatchCreation)
  | read (endpoint : ReadEndpoint) (answered : Bool)
  deriving DecidableEq, Repr

/-- What the handler of a request does next. -/
inductive ApiStep
  | submission (a : CreateStep)
  | batch (a : BatchStep)
  | read
  deriving DecidableEq, Repr

/-- One step of a request with the table to itself. -/
def apiAlone (env : CreateEnv) : Fleet × ApiRequest → ApiStep → Option (Fleet × ApiRequest)
  | (store, .submission c), .submission a => (c.step env store a).map fun next => (next.1, .submission next.2)
  | (store, .batch b), .batch a => (b.step env.api store a).map fun next => (next.1, .batch next.2)
  | (store, .read endpoint false), .read => some (store, .read endpoint true)
  | _, _ => none

/-- What a client sends, to any endpoint. -/
inductive ApiCall
  | createSubmission (posted : SubmissionRequest) (header : Option Bytes) (wait : Bool)
  | createBatch (posted : BatchRequest) (batchId : String)
  | read (endpoint : ReadEndpoint)
  deriving DecidableEq, Repr

/-- The request as it arrives. -/
def ApiCall.arrived : ApiCall → ApiRequest
  | .createSubmission posted header wait => .submission (.arrived posted header wait)
  | .createBatch posted batchId => .batch (.arrived posted batchId)
  | .read endpoint => .read endpoint false

/-- The depth of the queue is above the limit whenever the handler looks. -/
def Overloaded (env : CreateEnv) (_ : Fleet × ApiRequest) : ApiStep → Prop
  | .submission (.checkLoad queueDepth) => env.submitQueueLimit < queueDepth
  | _ => True

instance (env : CreateEnv) (s : Fleet × ApiRequest) : DecidablePred (Overloaded env s)
  | .submission (.checkLoad queueDepth) => inferInstanceAs (Decidable (env.submitQueueLimit < queueDepth))
  | .submission .prepare | .submission (.checkCache _) | .submission .checkCallback | .submission (.findKey ..)
  | .submission (.insert ..) | .submission (.notify _) | .submission (.wait ..) | .batch _ | .read => isTrue trivial

/-- The client is told that its submission was taken. -/
def CreatePhase.taken : CreatePhase → Bool
  | .answered (.created _) | .answered (.finished _) => true
  | _ => false

/-- The client is told that its batch was taken. -/
def BatchPhase.taken : BatchPhase → Bool
  | .answered (.created _ _) => true
  | _ => false

/-- The client is told that its work was taken. -/
def ApiRequest.taken : ApiRequest → Bool
  | .submission c => c.phase.taken
  | .batch b => b.phase.taken
  | .read _ _ => false

/-- The call is a batch that passes its checks, and some token is not in use. -/
def ApiCall.InsertsUnchecked (api : AppState) (before : Fleet) : ApiCall → Prop
  | .createBatch posted _ => (∃ req limits, posted.prepare api = .ok (req, limits)) ∧
      ∃ milliseconds random, Token.new milliseconds random ∉ before.rows.map Row.token
  | .createSubmission _ _ _ | .read _ => False

/-- The handler of a submission has not come to the end of its checks, or answered without getting there. -/
def CreatePhase.shut : CreatePhase → Bool
  | .inserting _ _ => false
  | phase => phase.beforeInsert

/-- A batch has inserted nothing, and its next step is not its last. -/
inductive BatchCreation.Shut (api : AppState) (b : BatchCreation) : Prop
  | received (hphase : b.phase = .received)
  | refused (e : CreateError) (hphase : b.phase = .answered (.refused e))
  | failed (hphase : b.phase = .answered .failed)
  | inserting (req : BatchRequest) (limits : ResourceLimits) (stdin : Option Bytes) (rest : List (Option Bytes))
    (tokens : List Token) (hphase : b.phase = .inserting req limits (stdin :: rest) tokens)
    (hprepared : b.posted.prepare api = .ok (req, limits))

/-- Above the limit a request for one submission is turned away before its insert. -/
theorem Creation.shut_of_step {env : CreateEnv} (hlimit : 0 < env.submitQueueLimit) {store store' : Fleet}
    {c c' : Creation} {a : CreateStep} (h : c.phase.shut = true)
    (hoverloaded : ∀ queueDepth, a = .checkLoad queueDepth → env.submitQueueLimit < queueDepth)
    (hstep : c.step env store a = some (store', c')) : store' = store ∧ c'.phase.shut = true := by
  have hlate {phase : CreatePhase} (hat : c.phase = phase) (hopen : phase.shut = false) : False := by
    rw [hat, hopen] at h
    cases h
  cases Creation.move_of_step hstep with
  | prepared | refused | cacheHit | cacheMiss | callbackAllowed | callbackRefused | keyless | keyUnknown | lookupFailed
  | shed => exact ⟨rfl, rfl⟩
  | keyKnown found hit key req limits hat hkey hfound =>
    cases hit.bodyMatches with
    | true => exact ⟨rfl, rfl⟩
    | false => exact ⟨rfl, rfl⟩
  | admitted queueDepth req limits hat hloaded => exact absurd ⟨hlimit, hoverloaded _ rfl⟩ hloaded
  | inserted _ _ _ _ _ _ hat | insertFailed _ _ _ _ _ hat | notifyFailed _ hat | startsWaiting _ hat | created _ hat
  | waitFailed _ _ hat | finished _ _ hat | gone _ hat => exact (hlate hat rfl).elim

/-- A checked batch has a test case. -/
theorem BatchRequest.exists_testCases_of_prepare {posted req : BatchRequest} {api : AppState} {limits : ResourceLimits}
    (h : posted.prepare api = .ok (req, limits)) : ∃ stdin rest, req.testCases = stdin :: rest := by
  obtain ⟨_, testCases, _, _, _, hcount, _, _, _, _, rfl⟩ := BatchRequest.prepare_eq_ok_iff.mp h
  exact List.exists_cons_of_length_pos (checkTestCases_eq_ok_iff.mp hcount).1

/-- A batch without a row that is about to insert has passed its checks and has a test case left. -/
theorem BatchCreation.Shut.prepared_of_inserting {api : AppState} {b : BatchCreation} (h : b.Shut api)
    {req : BatchRequest} {limits : ResourceLimits} {remaining : List (Option Bytes)} {tokens : List Token}
    (hat : b.phase = .inserting req limits remaining tokens) :
    (∃ req limits, b.posted.prepare api = .ok (req, limits)) ∧ remaining ≠ [] := by
  cases h with
  | received hphase => cases hphase.symm.trans hat
  | refused e hphase => cases hphase.symm.trans hat
  | failed hphase => cases hphase.symm.trans hat
  | inserting req' limits' stdin rest tokens' hphase hprepared =>
    cases hphase.symm.trans hat
    exact ⟨⟨_, _, hprepared⟩, List.cons_ne_nil stdin rest⟩

/-- A batch without a row does not notify. -/
theorem BatchCreation.Shut.not_notifying {api : AppState} {b : BatchCreation} (h : b.Shut api) (req : BatchRequest)
    (limits : ResourceLimits) (remaining : List (Option Bytes)) (tokens : List Token) (token : Token) :
    b.phase ≠ .notifying req limits remaining tokens token := by
  cases h with
  | received hphase | refused e hphase | failed hphase | inserting _ _ _ _ _ hphase =>
    rw [hphase]
    exact fun hsame => by cases hsame

/-- A batch that does not pass its checks, or finds every token in use, inserts nothing. -/
theorem BatchCreation.Shut.of_step {api : AppState} {store store' : Fleet} {b b' : BatchCreation} {a : BatchStep}
    (h : b.Shut api) (hused : (∃ req limits, b.posted.prepare api = .ok (req, limits)) →
      ∀ milliseconds random, Token.new milliseconds random ∈ store.rows.map Row.token)
    (hstep : b.step api store a = some (store', b')) : store' = store ∧ b'.Shut api ∧ b'.posted = b.posted := by
  cases BatchCreation.move_of_step hstep with
  | prepared req limits hat hprepared =>
    obtain ⟨stdin, rest, hcases⟩ := BatchRequest.exists_testCases_of_prepare hprepared
    exact ⟨rfl, .inserting req limits stdin rest [] (by rw [hcases]) hprepared, rfl⟩
  | refused e hat hrefused => exact ⟨rfl, .refused e rfl, rfl⟩
  | inserted milliseconds random reply req limits stdin rest tokens new hat hnew hcommitted hfresh =>
    rw [hnew] at hfresh
    exact absurd (hused (h.prepared_of_inserting hat).1 milliseconds random) hfresh
  | insertFailed milliseconds random reply req limits remaining tokens hat hcommitted => exact ⟨rfl, .failed rfl, rfl⟩
  | notified req limits remaining tokens token hat => exact absurd hat (h.not_notifying req limits remaining tokens token)
  | notifyFailed req limits remaining tokens token hat => exact ⟨rfl, .failed rfl, rfl⟩
  | finished req limits tokens hat => exact absurd rfl (h.prepared_of_inserting hat).2

/-- A request for one submission that has not got past its checks was not taken. -/
theorem CreatePhase.not_taken_of_shut {phase : CreatePhase} (h : phase.shut = true) : phase.taken = false := by
  cases phase with
  | answered reply =>
    cases reply with
    | created | finished => cases h
    | refused | cached | existing | idempotencyConflict | backpressure | failed => rfl
  | received | checkingCache | checkingCallback | findingKey | checkingLoad | inserting | notifying | waiting => rfl

/-- A batch that has inserted nothing was not taken. -/
theorem BatchCreation.Shut.not_taken {api : AppState} {b : BatchCreation} (h : b.Shut api) :
    b.phase.taken = false := by
  cases h with
  | received hphase => rw [hphase]; rfl
  | refused e hphase => rw [hphase]; rfl
  | failed hphase => rw [hphase]; rfl
  | inserting req limits stdin rest tokens hphase hprepared => rw [hphase]; rfl

/-- A call leaves the table as it was and is not taken, in every run in which the queue is above the limit. -/
def ApiCall.Sheds (env : CreateEnv) (before : Fleet) (call : ApiCall) : Prop :=
  ∀ after request, Reaches (apiAlone env) (Overloaded env) (before, call.arrived) (after, request) →
    after.rows = before.rows ∧ request.taken = false

/-- A request for one submission is shed. -/
theorem sheds_createSubmission {env : CreateEnv} (hlimit : 0 < env.submitQueueLimit) (before : Fleet)
    (posted : SubmissionRequest) (header : Option Bytes) (wait : Bool) :
    (ApiCall.createSubmission posted header wait).Sheds env before := by
  intro after request reached
  have hinv : after = before ∧ ∃ c : Creation, request = .submission c ∧ c.phase.shut = true := by
    refine reached.invariant (fun s => s.1 = before ∧ ∃ c : Creation, s.2 = .submission c ∧ c.phase.shut = true)
      ⟨rfl, _, rfl, rfl⟩ ?_
    rintro ⟨store, _⟩ a t ⟨rfl, c, rfl, hshut⟩ hoverloaded hstep
    cases a with
    | submission a =>
      obtain ⟨next, hnext, rfl⟩ := Option.map_eq_some_iff.mp hstep
      obtain ⟨hsame, hshut'⟩ := Creation.shut_of_step hlimit hshut (fun _ h => by subst h; exact hoverloaded) hnext
      exact ⟨hsame, _, rfl, hshut'⟩
    | batch a => cases hstep
    | read => cases hstep
  obtain ⟨rfl, c, rfl, hshut⟩ := hinv
  exact ⟨rfl, CreatePhase.not_taken_of_shut hshut⟩

/-- A batch that does not pass its checks inserts nothing. -/
theorem sheds_createBatch {env : CreateEnv} {before : Fleet} {posted : BatchRequest} {batchId : String}
    (h : ¬ (ApiCall.createBatch posted batchId).InsertsUnchecked env.api before) :
    (ApiCall.createBatch posted batchId).Sheds env before := by
  intro after request reached
  have hused (hok : ∃ req limits, posted.prepare env.api = .ok (req, limits)) (milliseconds random : ℕ) :
      Token.new milliseconds random ∈ before.rows.map Row.token := by
    by_contra hfresh
    exact h ⟨hok, milliseconds, random, hfresh⟩
  have hinv : after = before ∧ ∃ b : BatchCreation, request = .batch b ∧ b.Shut env.api ∧ b.posted = posted := by
    refine reached.invariant
      (fun s => s.1 = before ∧ ∃ b : BatchCreation, s.2 = .batch b ∧ b.Shut env.api ∧ b.posted = posted)
      ⟨rfl, _, rfl, .received rfl, rfl⟩ ?_
    rintro ⟨store, _⟩ a t ⟨rfl, b, rfl, hshut, rfl⟩ _ hstep
    cases a with
    | submission a => cases hstep
    | batch a =>
      obtain ⟨next, hnext, rfl⟩ := Option.map_eq_some_iff.mp hstep
      obtain ⟨hsame, hshut', hposted⟩ := hshut.of_step hused hnext
      exact ⟨hsame, _, rfl, hshut', hposted⟩
    | read => cases hstep
  obtain ⟨rfl, b, rfl, hshut, _⟩ := hinv
  exact ⟨rfl, hshut.not_taken⟩

/-- A query inserts nothing. -/
theorem sheds_read (env : CreateEnv) (before : Fleet) (endpoint : ReadEndpoint) :
    (ApiCall.read endpoint).Sheds env before := by
  intro after request reached
  have hinv : after = before ∧ ∃ answered, request = .read endpoint answered := by
    refine reached.invariant (fun s => s.1 = before ∧ ∃ answered, s.2 = .read endpoint answered) ⟨rfl, _, rfl⟩ ?_
    rintro ⟨store, _⟩ a t ⟨rfl, answered, rfl⟩ _ hstep
    cases a with
    | submission a => cases answered <;> cases hstep
    | batch a => cases answered <;> cases hstep
    | read =>
      cases answered with
      | false =>
        cases hstep
        exact ⟨rfl, true, rfl⟩
      | true => cases hstep
  obtain ⟨rfl, answered, rfl⟩ := hinv
  exact ⟨rfl, rfl⟩

/-- A batch that passes its checks inserts its first test case. -/
theorem not_sheds_of_insertsUnchecked {env : CreateEnv} {before : Fleet} {posted : BatchRequest} {batchId : String}
    (h : (ApiCall.createBatch posted batchId).InsertsUnchecked env.api before) :
    ¬ (ApiCall.createBatch posted batchId).Sheds env before := by
  intro hsheds
  obtain ⟨⟨req, limits, hprepared⟩, milliseconds, random, hfresh⟩ := h
  obtain ⟨stdin, rest, hcases⟩ := BatchRequest.exists_testCases_of_prepare hprepared
  let new := req.newSubmission limits batchId (Token.new milliseconds random) stdin
  have hfirst : apiAlone env (before, (ApiCall.createBatch posted batchId).arrived) (.batch .prepare) =
      some (before, .batch ⟨posted, batchId, .inserting req limits (stdin :: rest) [], []⟩) := by
    simp only [apiAlone, ApiCall.arrived, BatchCreation.arrived, BatchCreation.step, hprepared, hcases, Option.map_some]
  have hinsert := Fleet.step_insert (show new.token ∉ before.rows.map Row.token from hfresh)
  have hsecond : apiAlone env (before, .batch ⟨posted, batchId, .inserting req limits (stdin :: rest) [], []⟩)
      (.batch (.insert milliseconds random .acknowledged)) =
        some ({ before with rows := before.rows ++ [new.row before.now] },
          .batch ⟨posted, batchId, .notifying req limits rest [] new.token, [new.token]⟩) := by
    simp only [apiAlone, BatchCreation.step, Reply.committed, if_true]
    rw [hinsert]
    rfl
  have hallowed (s : Fleet × ApiRequest) (a : BatchStep) : Overloaded env s (.batch a) := trivial
  have hrows := (hsheds _ _ (.tail (.tail .refl (hallowed _ _) hfirst) (hallowed _ _) hsecond)).1
  exact absurd hrows (by simp)

/-- Above the limit of the queue nothing is inserted and no work is taken, unless the call is a batch that passes
its checks. -/
theorem sheds_iff {env : CreateEnv} (hlimit : 0 < env.submitQueueLimit) (before : Fleet) (call : ApiCall) :
    call.Sheds env before ↔ ¬ call.InsertsUnchecked env.api before := by
  constructor
  · intro hsheds hinserts
    cases call with
    | createSubmission posted header wait => exact hinserts
    | createBatch posted batchId => exact not_sheds_of_insertsUnchecked hinserts hsheds
    | read endpoint => exact hinserts
  · intro h
    cases call with
    | createSubmission posted header wait => exact sheds_createSubmission hlimit before posted header wait
    | createBatch posted batchId => exact sheds_createBatch h
    | read endpoint => exact sheds_read env before endpoint

/-- A service that sheds load above one queued submission. -/
def sheddingEnv : CreateEnv := { pythonEnv with submitQueueLimit := 1 }

/-- A request for one submission is shed, whatever the table holds. -/
theorem sheds_iff_pythonRequest : (ApiCall.createSubmission pythonRequest none false).Sheds sheddingEnv Fleet.init :=
  (sheds_iff (by decide) Fleet.init _).mpr fun h => h

/-- A batch of two test cases gets past the limit. -/
theorem batch_not_shed :
    ¬ ∀ (env : CreateEnv) (before : Fleet) (call : ApiCall), 0 < env.submitQueueLimit → call.Sheds env before := by
  intro hclaim
  have hprepared : twoCases.prepare sheddingEnv.api = .ok (twoCases, .default) := by decide +kernel
  have hinserts : (ApiCall.createBatch twoCases "b").InsertsUnchecked sheddingEnv.api Fleet.init :=
    ⟨⟨_, _, hprepared⟩, 0, 0, List.not_mem_nil⟩
  exact not_sheds_of_insertsUnchecked hinserts (hclaim sheddingEnv Fleet.init _ (by decide))

end ZeroCode.Api
