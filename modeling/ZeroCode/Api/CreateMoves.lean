import ZeroCode.Api.Creation

/-!
# What a step of a request can do

The handler of a submission seen one step at a time: for each step its possible outcomes,
with everything the handler found on the way. Statements about runs of the handler split
on these outcomes.
-/

namespace ZeroCode.Api

open ZeroCode.Core ZeroCode.Foundation ZeroCode.Sandbox ZeroCode.Worker

/-- The outcomes of a step of a request, with what it found. -/
inductive Creation.Move (env : CreateEnv) (store : Fleet) (c : Creation) : CreateStep → Fleet → Creation → Prop
  | prepared (req : SubmissionRequest) (limits : ResourceLimits) (hphase : c.phase = .received)
    (hprepared : c.posted.prepare env.api = .ok (req, limits)) :
    Move env store c .prepare store { c with phase := .checkingCache req limits }
  | refused (e : CreateError) (hphase : c.phase = .received) (hrefused : c.posted.prepare env.api = .error e) :
    Move env store c .prepare store { c with phase := .answered (.refused e) }
  | cacheHit (sub : Submission) (req : SubmissionRequest) (limits : ResourceLimits)
    (hphase : c.phase = .checkingCache req limits) :
    Move env store c (.checkCache (some sub)) store { c with phase := .answered (.cached sub) }
  | cacheMiss (req : SubmissionRequest) (limits : ResourceLimits) (hphase : c.phase = .checkingCache req limits) :
    Move env store c (.checkCache none) store { c with phase := .checkingCallback req limits }
  | callbackAllowed (req : SubmissionRequest) (limits : ResourceLimits) (hphase : c.phase = .checkingCallback req limits)
    (hallowed : (req.callbackUrl.map env.validateCallbackUrl).getD (.ok ()) = .ok ()) :
    Move env store c .checkCallback store { c with phase := .findingKey req limits }
  | callbackRefused (msg : String) (req : SubmissionRequest) (limits : ResourceLimits)
    (hphase : c.phase = .checkingCallback req limits)
    (hrefused : (req.callbackUrl.map env.validateCallbackUrl).getD (.ok ()) = .error msg) :
    Move env store c .checkCallback store { c with phase := .answered (.refused (.validation msg)) }
  | keyless (found : Option Token) (ok : Bool) (req : SubmissionRequest) (limits : ResourceLimits)
    (hphase : c.phase = .findingKey req limits) (hkey : c.key = none) :
    Move env store c (.findKey found ok) store { c with phase := .checkingLoad req limits }
  | keyUnknown (found : Option Token) (key : String) (req : SubmissionRequest) (limits : ResourceLimits)
    (hphase : c.phase = .findingKey req limits) (hkey : c.key = some key)
    (hfound : findByIdempotencyKey store.rows store.now key (env.hash (idempotencyInput req)) found = some none) :
    Move env store c (.findKey found true) store
      { c with phase := .checkingLoad req limits, lookedUpAt := some store.now }
  | keyKnown (found : Option Token) (hit : IdempotencyHit) (key : String) (req : SubmissionRequest)
    (limits : ResourceLimits) (hphase : c.phase = .findingKey req limits) (hkey : c.key = some key)
    (hfound : findByIdempotencyKey store.rows store.now key (env.hash (idempotencyInput req)) found = some (some hit)) :
    Move env store c (.findKey found true) store
      { c with
        phase := .answered (if hit.bodyMatches then .existing hit.token else .idempotencyConflict hit.token)
        lookedUpAt := some store.now }
  | lookupFailed (found : Option Token) (key : String) (req : SubmissionRequest) (limits : ResourceLimits)
    (hphase : c.phase = .findingKey req limits) (hkey : c.key = some key) :
    Move env store c (.findKey found false) store { c with phase := .answered .failed }
  | shed (queueDepth : ℤ) (req : SubmissionRequest) (limits : ResourceLimits) (hphase : c.phase = .checkingLoad req limits)
    (hloaded : 0 < env.submitQueueLimit ∧ env.submitQueueLimit < queueDepth) :
    Move env store c (.checkLoad queueDepth) store { c with phase := .answered (.backpressure 5) }
  | admitted (queueDepth : ℤ) (req : SubmissionRequest) (limits : ResourceLimits)
    (hphase : c.phase = .checkingLoad req limits)
    (hloaded : ¬ (0 < env.submitQueueLimit ∧ env.submitQueueLimit < queueDepth)) :
    Move env store c (.checkLoad queueDepth) store { c with phase := .inserting req limits }
  | inserted (milliseconds random : ℕ) (reply : Reply) (req : SubmissionRequest) (limits : ResourceLimits)
    (new : NewSubmission) (hphase : c.phase = .inserting req limits)
    (hnew : new = req.newSubmission limits (Token.new milliseconds random) c.key (env.hash (idempotencyInput req)))
    (hcommitted : reply.committed = true) (hfresh : new.token ∉ store.rows.map Row.token) :
    Move env store c (.insert milliseconds random reply) { store with rows := store.rows ++ [new.row store.now] }
      { c with
        phase := if reply = .acknowledged then .notifying (Token.new milliseconds random) else .answered .failed
        inserted := some (store.now, Token.new milliseconds random) }
  | insertFailed (milliseconds random : ℕ) (reply : Reply) (req : SubmissionRequest) (limits : ResourceLimits)
    (hphase : c.phase = .inserting req limits) (hcommitted : reply.committed = false) :
    Move env store c (.insert milliseconds random reply) store { c with phase := .answered .failed }
  | notifyFailed (token : Token) (hphase : c.phase = .notifying token) :
    Move env store c (.notify false) store { c with phase := .answered .failed }
  | startsWaiting (token : Token) (hphase : c.phase = .notifying token) (hwait : c.wait = true) :
    Move env store c (.notify true) store { c with phase := .waiting token }
  | created (token : Token) (hphase : c.phase = .notifying token) (hwait : c.wait = false) :
    Move env store c (.notify true) store { c with phase := .answered (.created token) }
  | waitFailed (sub : Option Submission) (token : Token) (hphase : c.phase = .waiting token) :
    Move env store c (.wait false sub) store { c with phase := .answered .failed }
  | finished (sub : Submission) (token : Token) (hphase : c.phase = .waiting token) :
    Move env store c (.wait true (some sub)) store { c with phase := .answered (.finished sub) }
  | gone (token : Token) (hphase : c.phase = .waiting token) :
    Move env store c (.wait true none) store { c with phase := .answered (.created token) }

/-- An insert appends its row. -/
theorem Fleet.insert_spec {s t : Fleet} {new : NewSubmission} (h : s.step (.insert new) = some t) :
    new.token ∉ s.rows.map Row.token ∧ t = { s with rows := s.rows ++ [new.row s.now] } := by
  cases Fleet.effect_of_step h with
  | insert new hfresh => exact ⟨hfresh, rfl⟩

/-- A submission with a fresh token can be inserted. -/
theorem Fleet.step_insert {s : Fleet} {new : NewSubmission} (hfresh : new.token ∉ s.rows.map Row.token) :
    s.step (.insert new) = some { s with rows := s.rows ++ [new.row s.now] } := by
  simp only [Fleet.step, insertSubmission]
  rw [if_neg hfresh]
  rfl

/-- Every step of a request has one of the outcomes. -/
theorem Creation.move_of_step {env : CreateEnv} {store store' : Fleet} {c c' : Creation} {a : CreateStep}
    (hstep : c.step env store a = some (store', c')) : c.Move env store a store' c' := by
  cases a with
  | prepare =>
    simp only [Creation.step] at hstep
    split at hstep
    · rename_i hphase
      split at hstep
      · rename_i req limits hprepared
        cases hstep
        exact .prepared req limits hphase hprepared
      · rename_i e hrefused
        cases hstep
        exact .refused e hphase hrefused
    · cases hstep
  | checkCache hit =>
    simp only [Creation.step] at hstep
    split at hstep
    · rename_i req limits hphase
      cases hit with
      | some sub =>
        cases hstep
        exact .cacheHit sub req limits hphase
      | none =>
        cases hstep
        exact .cacheMiss req limits hphase
    · cases hstep
  | checkCallback =>
    simp only [Creation.step] at hstep
    split at hstep
    · rename_i req limits hphase
      split at hstep
      · rename_i hallowed
        cases hstep
        exact .callbackAllowed req limits hphase hallowed
      · rename_i msg hrefused
        cases hstep
        exact .callbackRefused msg req limits hphase hrefused
    · cases hstep
  | findKey found ok =>
    simp only [Creation.step] at hstep
    split at hstep
    · rename_i req limits hphase
      split at hstep
      · rename_i hkey
        cases hstep
        exact .keyless found ok req limits hphase hkey
      · rename_i key hkey
        cases ok with
        | true =>
          obtain ⟨answer, hanswer, hnext⟩ := Option.map_eq_some_iff.mp hstep
          cases answer with
          | none =>
            cases hnext
            exact .keyUnknown found key req limits hphase hkey hanswer
          | some hit =>
            cases hnext
            exact .keyKnown found hit key req limits hphase hkey hanswer
        | false =>
          cases hstep
          exact .lookupFailed found key req limits hphase hkey
    · cases hstep
  | checkLoad queueDepth =>
    simp only [Creation.step] at hstep
    split at hstep
    · rename_i req limits hphase
      split at hstep
      · rename_i hloaded
        cases hstep
        exact .shed queueDepth req limits hphase hloaded
      · rename_i hloaded
        cases hstep
        exact .admitted queueDepth req limits hphase hloaded
    · cases hstep
  | insert milliseconds random reply =>
    simp only [Creation.step] at hstep
    split at hstep
    · rename_i req limits hphase
      split at hstep
      · rename_i hcommitted
        obtain ⟨after, hafter, hnext⟩ := Option.map_eq_some_iff.mp hstep
        obtain ⟨hfresh, rfl⟩ := Fleet.insert_spec hafter
        cases hnext
        exact .inserted milliseconds random reply req limits _ hphase rfl hcommitted hfresh
      · rename_i hcommitted
        cases hstep
        exact .insertFailed milliseconds random reply req limits hphase (by simpa using hcommitted)
    · cases hstep
  | notify ok =>
    simp only [Creation.step] at hstep
    split at hstep
    · rename_i token hphase
      cases ok with
      | false =>
        cases hstep
        exact .notifyFailed token hphase
      | true =>
        simp only [Bool.not_true, Bool.false_eq_true, if_false] at hstep
        split at hstep
        · rename_i hwait
          cases hstep
          exact .startsWaiting token hphase hwait
        · rename_i hwait
          cases hstep
          exact .created token hphase (by simpa using hwait)
    · cases hstep
  | wait ok sub =>
    simp only [Creation.step] at hstep
    split at hstep
    · rename_i token hphase
      cases ok with
      | false =>
        cases hstep
        exact .waitFailed sub token hphase
      | true =>
        cases sub with
        | some sub =>
          cases hstep
          exact .finished sub token hphase
        | none =>
          cases hstep
          exact .gone token hphase
    · cases hstep

/-- The checked request and the limits a phase carries. -/
def CreatePhase.checked : CreatePhase → Option (SubmissionRequest × ResourceLimits)
  | .checkingCache req limits | .checkingCallback req limits | .findingKey req limits | .checkingLoad req limits
  | .inserting req limits => some (req, limits)
  | .received | .notifying _ | .waiting _ | .answered _ => none

/-- The handler has not reached its insert, or answered without it. -/
def CreatePhase.beforeInsert : CreatePhase → Bool
  | .received | .checkingCache _ _ | .checkingCallback _ _ | .findingKey _ _ | .checkingLoad _ _ | .inserting _ _ => true
  | .answered (.refused _) | .answered (.cached _) | .answered (.existing _) | .answered (.idempotencyConflict _)
  | .answered (.backpressure _) | .answered .failed => true
  | .notifying _ | .waiting _ | .answered (.finished _) | .answered (.created _) => false

/-- The handler is behind its insert, and the only error left is a failed statement. -/
def CreatePhase.behindInsert : CreatePhase → Bool
  | .notifying _ | .waiting _ | .answered (.finished _) | .answered (.created _) | .answered .failed => true
  | _ => false

/-- The token a handler behind its insert carries. -/
def CreatePhase.token : CreatePhase → Option Token
  | .notifying token | .waiting token | .answered (.created token) => some token
  | _ => none

/-- What a step of a handler that has not inserted can do: it goes on, or answers, or inserts the row of its request. -/
inductive Creation.EarlyMove (env : CreateEnv) (store : Fleet) (c : Creation) (a : CreateStep) (store' : Fleet)
    (c' : Creation) : Prop
  | still (phase : CreatePhase) (lookedUpAt : Option ℚ) (hstore : store' = store)
    (hc : c' = { c with phase := phase, lookedUpAt := lookedUpAt }) (hphase : phase.beforeInsert = true)
    (hchecked : ∀ checked, phase.checked = some checked → c.posted.prepare env.api = .ok checked)
    (hcached : ∀ sub, phase = .answered (.cached sub) → a = .checkCache (some sub) ∧
      ∃ req limits, c.phase = .checkingCache req limits ∧ c.posted.prepare env.api = .ok (req, limits))
  | inserted (phase : CreatePhase) (req : SubmissionRequest) (limits : ResourceLimits) (token : Token)
    (hprepared : c.posted.prepare env.api = .ok (req, limits))
    (hstore : store' = { store with rows := store.rows ++
      [(req.newSubmission limits token c.key (env.hash (idempotencyInput req))).row store.now] })
    (hc : c' = { c with phase := phase, inserted := some (store.now, token) }) (hphase : phase.behindInsert = true)
    (htoken : ∀ t, phase.token = some t → t = token)

/-- Before its insert a handler goes on with the request it checked. -/
theorem Creation.earlyMove_of_step {env : CreateEnv} {store store' : Fleet} {c c' : Creation} {a : CreateStep}
    (hphase : c.phase.beforeInsert = true)
    (hchecked : ∀ checked, c.phase.checked = some checked → c.posted.prepare env.api = .ok checked)
    (hstep : c.step env store a = some (store', c')) : c.EarlyMove env store a store' c' := by
  have hprepared {req : SubmissionRequest} {limits : ResourceLimits} (h : c.phase.checked = some (req, limits)) :
      c.posted.prepare env.api = .ok (req, limits) := hchecked _ h
  have hstop (phase : CreatePhase) (hbefore : phase.beforeInsert = true) (hends : phase.checked = none)
      (hmiss : ∀ sub, phase ≠ .answered (.cached sub)) (t : Option ℚ) :
      c.EarlyMove env store a store { c with phase := phase, lookedUpAt := t } :=
    .still phase t rfl rfl hbefore (fun checked h => by cases hends.symm.trans h) fun sub h => absurd h (hmiss sub)
  have hgo (phase : CreatePhase) (hbefore : phase.beforeInsert = true) {req : SubmissionRequest}
      {limits : ResourceLimits} (hcarries : phase.checked = some (req, limits))
      (h : c.posted.prepare env.api = .ok (req, limits)) (t : Option ℚ) :
      c.EarlyMove env store a store { c with phase := phase, lookedUpAt := t } := by
    refine .still phase t rfl rfl hbefore (fun checked h' => ?_) fun sub h' => ?_
    · cases hcarries.symm.trans h'
      exact h
    · rw [h'] at hcarries
      cases hcarries
  have hnot {phase : CreatePhase} (hat : c.phase = phase) (hlater : phase.beforeInsert = false) : False := by
    rw [hat, hlater] at hphase
    cases hphase
  cases Creation.move_of_step hstep with
  | prepared req limits hat hok => exact hgo _ rfl rfl hok _
  | refused e hat hrefused => exact hstop _ rfl rfl (fun _ h => by cases h) _
  | cacheHit sub req limits hat =>
    refine .still _ _ rfl rfl rfl (fun checked h => by cases h) fun sub' h => ?_
    cases h
    exact ⟨rfl, req, limits, hat, hprepared (by rw [hat]; rfl)⟩
  | cacheMiss req limits hat => exact hgo _ rfl rfl (hprepared (by rw [hat]; rfl)) _
  | callbackAllowed req limits hat hallowed => exact hgo _ rfl rfl (hprepared (by rw [hat]; rfl)) _
  | callbackRefused msg req limits hat hrefused => exact hstop _ rfl rfl (fun _ h => by cases h) _
  | keyless found ok req limits hat hkey => exact hgo _ rfl rfl (hprepared (by rw [hat]; rfl)) _
  | keyUnknown found key req limits hat hkey hfound => exact hgo _ rfl rfl (hprepared (by rw [hat]; rfl)) _
  | keyKnown found hit key req limits hat hkey hfound =>
    cases hit.bodyMatches with
    | true => exact hstop _ rfl rfl (fun _ h => by cases h) _
    | false => exact hstop _ rfl rfl (fun _ h => by cases h) _
  | lookupFailed found key req limits hat hkey => exact hstop _ rfl rfl (fun _ h => by cases h) _
  | shed queueDepth req limits hat hloaded => exact hstop _ rfl rfl (fun _ h => by cases h) _
  | admitted queueDepth req limits hat hloaded => exact hgo _ rfl rfl (hprepared (by rw [hat]; rfl)) _
  | inserted milliseconds random reply req limits new hat hnew hcommitted hfresh =>
    have hbehind : (if reply = .acknowledged then CreatePhase.notifying (Token.new milliseconds random)
        else .answered .failed).behindInsert = true := by
      split <;> rfl
    refine .inserted _ req limits (Token.new milliseconds random) (hprepared (by rw [hat]; rfl)) (by rw [hnew]) rfl
      hbehind fun t ht => ?_
    cases reply <;> cases ht
    rfl
  | insertFailed milliseconds random reply req limits hat hcommitted => exact hstop _ rfl rfl (fun _ h => by cases h) _
  | notifyFailed _ hat | startsWaiting _ hat _ | created _ hat _ | waitFailed _ _ hat | finished _ _ hat | gone _ hat =>
    exact (hnot hat rfl).elim

/-- Behind its insert a handler notifies, waits and answers, and changes nothing. -/
theorem Creation.lateMove_of_step {env : CreateEnv} {store store' : Fleet} {c c' : Creation} {a : CreateStep}
    (hphase : c.phase.behindInsert = true) (hstep : c.step env store a = some (store', c')) :
    store' = store ∧ ∃ phase, c' = { c with phase := phase } ∧ phase.behindInsert = true ∧
      ∀ t, phase.token = some t → c.phase.token = some t := by
  have hnot {phase : CreatePhase} (hat : c.phase = phase) (hearlier : phase.behindInsert = false) : False := by
    rw [hat, hearlier] at hphase
    cases hphase
  cases Creation.move_of_step hstep with
  | prepared _ _ hat _ | refused _ hat _ | cacheHit _ _ _ hat | cacheMiss _ _ hat | callbackAllowed _ _ hat _
  | callbackRefused _ _ _ hat _ | keyless _ _ _ _ hat _ | keyUnknown _ _ _ _ hat _ _ | keyKnown _ _ _ _ _ hat _ _
  | lookupFailed _ _ _ _ hat _ | shed _ _ _ hat _ | admitted _ _ _ hat _ | inserted _ _ _ _ _ _ hat _ _ _
  | insertFailed _ _ _ _ _ hat _ => exact (hnot hat rfl).elim
  | notifyFailed token hat => exact ⟨rfl, _, rfl, rfl, fun t ht => by cases ht⟩
  | startsWaiting token hat hwait => exact ⟨rfl, _, rfl, rfl, fun t ht => by rw [hat, ← ht]; rfl⟩
  | created token hat hwait => exact ⟨rfl, _, rfl, rfl, fun t ht => by rw [hat, ← ht]; rfl⟩
  | waitFailed sub token hat => exact ⟨rfl, _, rfl, rfl, fun t ht => by cases ht⟩
  | finished sub token hat => exact ⟨rfl, _, rfl, rfl, fun t ht => by cases ht⟩
  | gone token hat => exact ⟨rfl, _, rfl, rfl, fun t ht => by rw [hat, ← ht]; rfl⟩

end ZeroCode.Api
