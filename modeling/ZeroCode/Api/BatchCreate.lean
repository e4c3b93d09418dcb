import ZeroCode.Api.CreateMoves

/-!
# What a failed request leaves behind

Neither handler opens a transaction: every insert and every notification is a statement of
its own, and the handler returns at the first one that fails. A single request may fail
behind its insert, and a batch between any two of its statements. What was inserted by then
stays, and it is always the beginning of what the request asked for.
-/

namespace ZeroCode.Api

open ZeroCode.Core ZeroCode.Foundation ZeroCode.Sandbox ZeroCode.Worker

/-- What the handler of a batch answers. -/
inductive BatchReply
  | refused (e : CreateError)
  | failed
  | created (batchId : String) (tokens : List Token)
  deriving DecidableEq, Repr

/-- Where the handler of a batch is: `remaining` are the test cases still to insert. -/
inductive BatchPhase
  | received
  | inserting (req : BatchRequest) (limits : ResourceLimits) (remaining : List (Option Bytes)) (tokens : List Token)
  | notifying (req : BatchRequest) (limits : ResourceLimits) (remaining : List (Option Bytes)) (tokens : List Token)
    (token : Token)
  | answered (reply : BatchReply)
  deriving DecidableEq, Repr

/-- One request for a batch. `inserted` holds the tokens of the inserts that committed and is read by no step. -/
structure BatchCreation where
  posted : BatchRequest
  batchId : String
  phase : BatchPhase
  inserted : List Token
  deriving DecidableEq, Repr

/-- What the handler of a batch does next, with what it meets there. -/
inductive BatchStep
  | prepare
  | insert (milliseconds random : ℕ) (reply : Reply)
  | notify (ok : Bool)
  | finish
  deriving DecidableEq, Repr

/-- One step of a request for a batch: the table after it, and the request. -/
def BatchCreation.step (api : AppState) (store : Fleet) (b : BatchCreation) : BatchStep → Option (Fleet × BatchCreation)
  | .prepare =>
    match b.phase with
    | .received =>
      match b.posted.prepare api with
      | .ok (req, limits) => some (store, { b with phase := .inserting req limits req.testCases [] })
      | .error e => some (store, { b with phase := .answered (.refused e) })
    | _ => none
  | .insert milliseconds random reply =>
    match b.phase with
    | .inserting req limits (stdin :: rest) tokens =>
      let token := Token.new milliseconds random
      let new := req.newSubmission limits b.batchId token stdin
      if reply.committed then
        let phase := if reply = .acknowledged then .notifying req limits rest tokens token else .answered .failed
        (store.step (.insert new)).map fun store =>
          (store, { b with phase := phase, inserted := b.inserted ++ [token] })
      else some (store, { b with phase := .answered .failed })
    | _ => none
  | .notify ok =>
    match b.phase with
    | .notifying req limits remaining tokens token =>
      if ok then some (store, { b with phase := .inserting req limits remaining (tokens ++ [token]) })
      else some (store, { b with phase := .answered .failed })
    | _ => none
  | .finish =>
    match b.phase with
    | .inserting _ _ [] tokens => some (store, { b with phase := .answered (.created b.batchId tokens) })
    | _ => none

/-- A request for one submission that has just arrived. -/
def Creation.arrived (posted : SubmissionRequest) (header : Option Bytes) (wait : Bool) : Creation :=
  ⟨posted, header, wait, .received, none, none⟩

/-- A request for a batch that has just arrived. -/
def BatchCreation.arrived (posted : BatchRequest) (batchId : String) : BatchCreation := ⟨posted, batchId, .received, []⟩

/-- A request for one submission with the table to itself. -/
def createAlone (env : CreateEnv) (s : Fleet × Creation) (a : CreateStep) : Option (Fleet × Creation) :=
  s.2.step env s.1 a

/-- A request for a batch with the table to itself. -/
def batchAlone (api : AppState) (s : Fleet × BatchCreation) (a : BatchStep) : Option (Fleet × BatchCreation) :=
  s.2.step api s.1 a

/-- What a client is told is an error. -/
def CreateReply.isError : CreateReply → Bool
  | .refused _ | .idempotencyConflict _ | .backpressure _ | .failed => true
  | .cached _ | .existing _ | .finished _ | .created _ => false

/-- What the client of a batch is told is an error. -/
def BatchReply.isError : BatchReply → Bool
  | .refused _ | .failed => true
  | .created _ _ => false

/-- The rows of the first test cases of a checked batch, with the tokens they got. -/
def BatchRequest.rows (req : BatchRequest) (limits : ResourceLimits) (batchId : String) (now : ℚ) (tokens : List Token)
    (cases : List (Option Bytes)) : List Row :=
  List.zipWith (fun token stdin => (req.newSubmission limits batchId token stdin).row now) tokens cases

/-- How far a request got from the table it found. -/
inductive CreateProgress (env : CreateEnv) (before : Fleet) (posted : SubmissionRequest) (header : Option Bytes)
    (after : Fleet) (c : Creation) : Prop
  | untouched (hposted : c.posted = posted) (hheader : c.header = header) (hphase : c.phase.beforeInsert = true)
    (hinserted : c.inserted = none) (hafter : after = before)
    (hchecked : ∀ checked, c.phase.checked = some checked → posted.prepare env.api = .ok checked)
  | inserted (hposted : c.posted = posted) (hheader : c.header = header) (hphase : c.phase.behindInsert = true)
    (req : SubmissionRequest) (limits : ResourceLimits) (token : Token)
    (hprepared : posted.prepare env.api = .ok (req, limits)) (hinserted : c.inserted = some (before.now, token))
    (htoken : ∀ t, c.phase.token = some t → t = token) (hrows : after.rows = before.rows ++
      [(req.newSubmission limits token (header.bind headerText) (env.hash (idempotencyInput req))).row before.now])

/-- A step of a request that has not inserted leaves the table alone, or inserts the row of the request; behind
the insert nothing else changes the table. -/
theorem CreateProgress.of_step {env : CreateEnv} {before : Fleet} {posted : SubmissionRequest} {header : Option Bytes}
    {after after' : Fleet} {c c' : Creation} {a : CreateStep} (h : CreateProgress env before posted header after c)
    (hstep : c.step env after a = some (after', c')) : CreateProgress env before posted header after' c' := by
  cases h with
  | untouched hposted hheader hphase hinserted hafter hchecked =>
    subst hafter hposted
    cases Creation.earlyMove_of_step hphase hchecked hstep with
    | still phase lookedUpAt hstore hc hphase' hchecked' hcached =>
      subst hstore hc
      exact .untouched rfl hheader hphase' hinserted rfl hchecked'
    | inserted phase req limits token hprepared hstore hc hphase' htoken =>
      subst hstore hc
      refine .inserted rfl hheader hphase' req limits token hprepared rfl htoken ?_
      rw [Creation.key, hheader]
  | inserted hposted hheader hphase req limits token hprepared hinserted htoken hrows =>
    obtain ⟨rfl, phase, rfl, hphase', hcarries⟩ := Creation.lateMove_of_step hphase hstep
    exact .inserted hposted hheader hphase' req limits token hprepared hinserted
      (fun t ht => htoken t (hcarries t ht)) hrows

/-- The outcomes of a step of a batch, with what it found. -/
inductive BatchCreation.Move (api : AppState) (store : Fleet) (b : BatchCreation) :
    BatchStep → Fleet → BatchCreation → Prop
  | prepared (req : BatchRequest) (limits : ResourceLimits) (hphase : b.phase = .received)
    (hprepared : b.posted.prepare api = .ok (req, limits)) :
    Move api store b .prepare store { b with phase := .inserting req limits req.testCases [] }
  | refused (e : CreateError) (hphase : b.phase = .received) (hrefused : b.posted.prepare api = .error e) :
    Move api store b .prepare store { b with phase := .answered (.refused e) }
  | inserted (milliseconds random : ℕ) (reply : Reply) (req : BatchRequest) (limits : ResourceLimits)
    (stdin : Option Bytes) (rest : List (Option Bytes)) (tokens : List Token) (new : NewSubmission)
    (hphase : b.phase = .inserting req limits (stdin :: rest) tokens)
    (hnew : new = req.newSubmission limits b.batchId (Token.new milliseconds random) stdin)
    (hcommitted : reply.committed = true) (hfresh : new.token ∉ store.rows.map Row.token) :
    Move api store b (.insert milliseconds random reply) { store with rows := store.rows ++ [new.row store.now] }
      { b with
        phase := if reply = .acknowledged then .notifying req limits rest tokens (Token.new milliseconds random)
          else .answered .failed
        inserted := b.inserted ++ [Token.new milliseconds random] }
  | insertFailed (milliseconds random : ℕ) (reply : Reply) (req : BatchRequest) (limits : ResourceLimits)
    (remaining : List (Option Bytes)) (tokens : List Token) (hphase : b.phase = .inserting req limits remaining tokens)
    (hcommitted : reply.committed = false) :
    Move api store b (.insert milliseconds random reply) store { b with phase := .answered .failed }
  | notified (req : BatchRequest) (limits : ResourceLimits) (remaining : List (Option Bytes)) (tokens : List Token)
    (token : Token) (hphase : b.phase = .notifying req limits remaining tokens token) :
    Move api store b (.notify true) store { b with phase := .inserting req limits remaining (tokens ++ [token]) }
  | notifyFailed (req : BatchRequest) (limits : ResourceLimits) (remaining : List (Option Bytes)) (tokens : List Token)
    (token : Token) (hphase : b.phase = .notifying req limits remaining tokens token) :
    Move api store b (.notify false) store { b with phase := .answered .failed }
  | finished (req : BatchRequest) (limits : ResourceLimits) (tokens : List Token)
    (hphase : b.phase = .inserting req limits [] tokens) :
    Move api store b .finish store { b with phase := .answered (.created b.batchId tokens) }

/-- Every step of a batch has one of the outcomes. -/
theorem BatchCreation.move_of_step {api : AppState} {store store' : Fleet} {b b' : BatchCreation} {a : BatchStep}
    (hstep : b.step api store a = some (store', b')) : b.Move api store a store' b' := by
  cases a with
  | prepare =>
    simp only [BatchCreation.step] at hstep
    split at hstep
    · rename_i hphase
      split at hstep
      · rename_i req limits hprepared
        cases hstep
        exact .prepared req limits hphase hprepared
      · rename_i e hrefused
        cases hstep
        exact .refused e hphase hrefused
    · cases hstep
  | insert milliseconds random reply =>
    simp only [BatchCreation.step] at hstep
    split at hstep
    · rename_i req limits stdin rest tokens hphase
      split at hstep
      · rename_i hcommitted
        obtain ⟨after, hafter, hnext⟩ := Option.map_eq_some_iff.mp hstep
        obtain ⟨hfresh, rfl⟩ := Fleet.insert_spec hafter
        cases hnext
        exact .inserted milliseconds random reply req limits stdin rest tokens _ hphase rfl hcommitted hfresh
      · rename_i hcommitted
        cases hstep
        exact .insertFailed milliseconds random reply req limits _ tokens hphase (by simpa using hcommitted)
    · cases hstep
  | notify ok =>
    simp only [BatchCreation.step] at hstep
    split at hstep
    · rename_i req limits remaining tokens token hphase
      cases ok with
      | true =>
        cases hstep
        exact .notified req limits remaining tokens token hphase
      | false =>
        cases hstep
        exact .notifyFailed req limits remaining tokens token hphase
    · cases hstep
  | finish =>
    simp only [BatchCreation.step] at hstep
    split at hstep
    · rename_i req limits tokens hphase
      cases hstep
      exact .finished req limits tokens hphase
    · cases hstep

/-- How far a batch got from the table it found: the rows of a beginning of its test cases are behind it. -/
inductive BatchProgress (api : AppState) (before : Fleet) (posted : BatchRequest) (batchId : String) (after : Fleet)
    (b : BatchCreation) : Prop
  | untouched (hposted : b.posted = posted) (hbatchId : b.batchId = batchId)
    (hphase : b.phase = .received ∨ ∃ e, b.phase = .answered (.refused e)) (hinserted : b.inserted = [])
    (hafter : after = before)
  | inserting (hposted : b.posted = posted) (hbatchId : b.batchId = batchId) (req : BatchRequest)
    (limits : ResourceLimits) (hprepared : posted.prepare api = .ok (req, limits)) (done rest : List (Option Bytes))
    (hcases : req.testCases = done ++ rest) (hlength : b.inserted.length = done.length) (hnow : after.now = before.now)
    (hrows : after.rows = before.rows ++ req.rows limits batchId before.now b.inserted done)
    (hphase : (∃ tokens, b.phase = .inserting req limits rest tokens) ∨
      (∃ tokens token, b.phase = .notifying req limits rest tokens token) ∨ b.phase = .answered .failed ∨
        ∃ tokens, b.phase = .answered (.created batchId tokens))

/-- A step of a batch leaves the table alone, or inserts the row of the next test case. -/
theorem BatchProgress.of_step {api : AppState} {before : Fleet} {posted : BatchRequest} {batchId : String}
    {after after' : Fleet} {b b' : BatchCreation} {a : BatchStep} (h : BatchProgress api before posted batchId after b)
    (hstep : b.step api after a = some (after', b')) : BatchProgress api before posted batchId after' b' := by
  cases h with
  | untouched hposted hbatchId hphase hinserted hafter =>
    subst hafter
    cases BatchCreation.move_of_step hstep with
    | prepared req limits hat hprepared =>
      refine .inserting hposted hbatchId req limits (hposted ▸ hprepared) [] req.testCases rfl ?_ rfl ?_ ?_
      · exact congrArg List.length hinserted
      · rw [BatchRequest.rows, List.zipWith_nil_right, List.append_nil]
      · exact Or.inl ⟨[], rfl⟩
    | refused e hat hrefused => exact .untouched hposted hbatchId (Or.inr ⟨e, rfl⟩) hinserted rfl
    | inserted milliseconds random reply req limits stdin rest tokens new hat hnew hcommitted hfresh =>
      rcases hphase with hphase | ⟨e, hphase⟩ <;> cases hphase.symm.trans hat
    | insertFailed milliseconds random reply req limits remaining tokens hat hcommitted =>
      rcases hphase with hphase | ⟨e, hphase⟩ <;> cases hphase.symm.trans hat
    | notified req limits remaining tokens token hat =>
      rcases hphase with hphase | ⟨e, hphase⟩ <;> cases hphase.symm.trans hat
    | notifyFailed req limits remaining tokens token hat =>
      rcases hphase with hphase | ⟨e, hphase⟩ <;> cases hphase.symm.trans hat
    | finished req limits tokens hat =>
      rcases hphase with hphase | ⟨e, hphase⟩ <;> cases hphase.symm.trans hat
  | inserting hposted hbatchId req limits hprepared done rest hcases hlength hnow hrows hphase =>
    cases BatchCreation.move_of_step hstep with
    | prepared req' limits' hat hprepared' =>
      rcases hphase with ⟨_, hphase⟩ | ⟨_, _, hphase⟩ | hphase | ⟨_, hphase⟩ <;> cases hphase.symm.trans hat
    | refused e hat hrefused =>
      rcases hphase with ⟨_, hphase⟩ | ⟨_, _, hphase⟩ | hphase | ⟨_, hphase⟩ <;> cases hphase.symm.trans hat
    | inserted milliseconds random reply req' limits' stdin rest' tokens new hat hnew hcommitted hfresh =>
      rcases hphase with ⟨tokens', hphase⟩ | ⟨_, _, hphase⟩ | hphase | ⟨_, hphase⟩ <;> cases hphase.symm.trans hat
      refine .inserting hposted hbatchId req limits hprepared (done ++ [stdin]) rest' ?_ ?_ hnow ?_ ?_
      · rw [hcases, List.append_assoc, List.singleton_append]
      · rw [List.length_append, List.length_append, hlength, List.length_singleton, List.length_singleton]
      · rw [hrows, hnew, hbatchId, hnow, List.append_assoc]
        unfold BatchRequest.rows
        rw [List.zipWith_append hlength]
        rfl
      · cases reply with
        | acknowledged => exact Or.inr (Or.inl ⟨tokens, _, rfl⟩)
        | lost => exact Or.inr (Or.inr (Or.inl rfl))
        | failed => cases hcommitted
    | insertFailed milliseconds random reply req' limits' remaining tokens hat hcommitted =>
      exact .inserting hposted hbatchId req limits hprepared done rest hcases hlength hnow hrows
        (Or.inr (Or.inr (Or.inl rfl)))
    | notified req' limits' remaining tokens token hat =>
      rcases hphase with ⟨_, hphase⟩ | ⟨_, _, hphase⟩ | hphase | ⟨_, hphase⟩ <;> cases hphase.symm.trans hat
      exact .inserting hposted hbatchId req limits hprepared done rest hcases hlength hnow hrows
        (Or.inl ⟨_, rfl⟩)
    | notifyFailed req' limits' remaining tokens token hat =>
      exact .inserting hposted hbatchId req limits hprepared done rest hcases hlength hnow hrows
        (Or.inr (Or.inr (Or.inl rfl)))
    | finished req' limits' tokens hat =>
      exact .inserting hposted hbatchId req limits hprepared done rest hcases hlength hnow hrows
        (Or.inr (Or.inr (Or.inr ⟨tokens, by rw [hbatchId]⟩)))

/-- How far a request got is known at the end of each of its runs. -/
theorem CreateProgress.of_reachable {env : CreateEnv} {before after : Fleet} {posted : SubmissionRequest}
    {header : Option Bytes} {wait : Bool} {c : Creation}
    (reached : Reachable (createAlone env) (before, .arrived posted header wait) (after, c)) :
    CreateProgress env before posted header after c := by
  have hstart : CreateProgress env before posted header before (.arrived posted header wait) := by
    refine .untouched rfl rfl rfl rfl rfl fun checked hchecked => ?_
    change none = some checked at hchecked
    cases hchecked
  refine reached.invariant (fun s => CreateProgress env before posted header s.1 s.2) hstart ?_
  intro s a t hprogress _ hstep
  exact CreateProgress.of_step hprogress hstep

/-- How far a batch got is known at the end of each of its runs. -/
theorem BatchProgress.of_reachable {api : AppState} {before after : Fleet} {posted : BatchRequest} {batchId : String}
    {b : BatchCreation} (reached : Reachable (batchAlone api) (before, .arrived posted batchId) (after, b)) :
    BatchProgress api before posted batchId after b := by
  have hstart : BatchProgress api before posted batchId before (.arrived posted batchId) :=
    .untouched rfl rfl (Or.inl rfl) rfl rfl
  refine reached.invariant (fun s => BatchProgress api before posted batchId s.1 s.2) hstart ?_
  intro s a t hprogress _ hstep
  exact BatchProgress.of_step hprogress hstep

/-- A request that is answered with an error leaves the table as it was, followed by the rows it had inserted by
then: the row of a single request, or the rows of a beginning of the test cases. It leaves rows only behind a
statement that failed. -/
theorem failed_request_leaves_beginning (env : CreateEnv) (before : Fleet) :
    (∀ (posted : SubmissionRequest) (header : Option Bytes) (wait : Bool) (after : Fleet) (c : Creation)
      (reply : CreateReply), Reachable (createAlone env) (before, .arrived posted header wait) (after, c) →
      c.phase = .answered reply → reply.isError = true →
        (c.inserted = none ∧ after = before) ∨
          ∃ req limits token, reply = .failed ∧ posted.prepare env.api = .ok (req, limits) ∧
            c.inserted = some (before.now, token) ∧
              after.rows = before.rows ++ [(req.newSubmission limits token (header.bind headerText)
                (env.hash (idempotencyInput req))).row before.now]) ∧
      ∀ (posted : BatchRequest) (batchId : String) (after : Fleet) (b : BatchCreation) (reply : BatchReply),
        Reachable (batchAlone env.api) (before, .arrived posted batchId) (after, b) →
        b.phase = .answered reply → reply.isError = true →
          (b.inserted = [] ∧ after = before) ∨
            ∃ req limits done rest, reply = .failed ∧ posted.prepare env.api = .ok (req, limits) ∧
              req.testCases = done ++ rest ∧ b.inserted.length = done.length ∧
                after.rows = before.rows ++ req.rows limits batchId before.now b.inserted done := by
  constructor
  · intro posted header wait after c reply reached hanswered herror
    cases CreateProgress.of_reachable reached with
    | untouched hposted hheader hphase hinserted hafter hchecked => exact Or.inl ⟨hinserted, hafter⟩
    | inserted hposted hheader hphase req limits token hprepared hinserted htoken hrows =>
      refine Or.inr ⟨req, limits, token, ?_, hprepared, hinserted, hrows⟩
      rw [hanswered] at hphase
      cases reply with
      | failed => rfl
      | refused | idempotencyConflict | backpressure => cases hphase
      | cached | existing | finished | created => cases herror
  · intro posted batchId after b reply reached hanswered herror
    cases BatchProgress.of_reachable reached with
    | untouched hposted hbatchId hphase hinserted hafter => exact Or.inl ⟨hinserted, hafter⟩
    | inserting hposted hbatchId req limits hprepared done rest hcases hlength hnow hrows hphase =>
      refine Or.inr ⟨req, limits, done, rest, ?_, hprepared, hcases, hlength, hrows⟩
      rcases hphase with ⟨_, hphase⟩ | ⟨_, _, hphase⟩ | hphase | ⟨_, hphase⟩ <;> cases hanswered.symm.trans hphase
      · rfl
      · cases herror

/-- A batch of two test cases. -/
def twoCases : BatchRequest where
  languageId := 71
  sourceCode := [112, 97, 115, 115]
  testCases := [some [49], some [50]]
  cpuTimeLimit := none
  wallTimeLimit := none
  memoryLimitMb := none
  base64Encoded := false

/-- A request whose notification fails behind its insert. -/
def failedNotify : Fleet × Creation :=
  lastState (createAlone pythonEnv) (Fleet.init, .arrived pythonRequest none false)
    [.prepare, .checkCache none, .checkCallback, .findKey none true, .checkLoad 0, .insert 1 5 .acknowledged, .notify false]

/-- A batch whose second insert fails. -/
def failedInsert : Fleet × BatchCreation :=
  lastState (batchAlone pythonState) (Fleet.init, .arrived twoCases "b")
    [.prepare, .insert 1 5 .acknowledged, .notify true, .insert 1 6 .failed]

/-- The request gets that far. -/
theorem reachable_failedNotify :
    Reachable (createAlone pythonEnv) (Fleet.init, .arrived pythonRequest none false) failedNotify :=
  .of_runActions _ (runActions_eq_lastState (by decide +kernel))

/-- The batch gets that far. -/
theorem reachable_failedInsert : Reachable (batchAlone pythonState) (Fleet.init, .arrived twoCases "b") failedInsert :=
  .of_runActions _ (runActions_eq_lastState (by decide +kernel))

/-- Both leave the row they had inserted. -/
theorem failed_request_leaves_beginning_python :
    (∃ req limits token, pythonRequest.prepare pythonState = .ok (req, limits) ∧
      failedNotify.1.rows = [(req.newSubmission limits token none (idempotencyInput req)).row 0]) ∧
      ∃ req limits tokens, twoCases.prepare pythonState = .ok (req, limits) ∧
        failedInsert.1.rows = req.rows limits "b" 0 tokens [some [49]] := by
  obtain ⟨hsingle, hbatch⟩ := failed_request_leaves_beginning pythonEnv Fleet.init
  constructor
  · rcases hsingle pythonRequest none false failedNotify.1 failedNotify.2 .failed reachable_failedNotify
      (by decide +kernel) rfl with ⟨hnone, _⟩ | ⟨req, limits, token, _, hprepared, _, hrows⟩
    · exact absurd hnone (by decide +kernel)
    · exact ⟨req, limits, token, hprepared, hrows⟩
  · rcases hbatch twoCases "b" failedInsert.1 failedInsert.2 .failed reachable_failedInsert
      (by decide +kernel) rfl with ⟨hnone, _⟩ | ⟨req, limits, done, rest, _, hprepared, hcases, hlength, hrows⟩
    · exact absurd hnone (by decide +kernel)
    · have hone : done.length = 1 := hlength.symm.trans (by decide +kernel)
      have hreq : req.testCases = [some [49], some [50]] := by
        have hsame : twoCases.prepare pythonEnv.api = .ok (twoCases, .default) := by decide +kernel
        rw [hsame] at hprepared
        cases hprepared
        rfl
      obtain ⟨first, rfl⟩ := List.length_eq_one_iff.mp hone
      rw [hreq] at hcases
      cases hcases
      exact ⟨req, limits, _, hprepared, hrows⟩

/-- Neither kind of request is all or nothing. -/
theorem requests_not_atomic :
    (¬ ∀ (env : CreateEnv) (before : Fleet) (posted : SubmissionRequest) (header : Option Bytes) (wait : Bool)
      (after : Fleet) (c : Creation) (reply : CreateReply),
      Reachable (createAlone env) (before, .arrived posted header wait) (after, c) →
      c.phase = .answered reply → reply.isError = true → after.rows = before.rows) ∧
      ¬ ∀ (api : AppState) (before : Fleet) (posted : BatchRequest) (batchId : String) (after : Fleet)
        (b : BatchCreation) (reply : BatchReply),
        Reachable (batchAlone api) (before, .arrived posted batchId) (after, b) →
        b.phase = .answered reply → reply.isError = true → after.rows = before.rows := by
  constructor
  · intro hclaim
    have hrows : failedNotify.1.rows = Fleet.init.rows := hclaim pythonEnv Fleet.init pythonRequest none false
      failedNotify.1 failedNotify.2 .failed reachable_failedNotify (by decide +kernel) rfl
    exact absurd hrows (by decide +kernel)
  · intro hclaim
    have hrows : failedInsert.1.rows = Fleet.init.rows := hclaim pythonState Fleet.init twoCases "b"
      failedInsert.1 failedInsert.2 .failed reachable_failedInsert (by decide +kernel) rfl
    exact absurd hrows (by decide +kernel)

end ZeroCode.Api
