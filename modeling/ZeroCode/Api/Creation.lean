import ZeroCode.Cache.CompileKey
import ZeroCode.Core.Ulid
import ZeroCode.Worker.Identity

/-!
# The handler of a submission

A request is checked, looked up in the result cache, checked for its callback URL, looked up
by its idempotency key, held against the depth of the queue, inserted, notified of, and
waited for, in this order. Each of these is a step of its own, so that anything may happen
at the table between two of them.
-/

namespace ZeroCode.Api

open ZeroCode.Cache ZeroCode.Core ZeroCode.Foundation ZeroCode.Sandbox ZeroCode.Worker

/-- What the handler uses: the checks of a request, the check of a callback URL, the hash of a body and the
depth of the queue above which new work is shed. -/
structure CreateEnv where
  api : AppState
  validateCallbackUrl : String → Except String Unit
  hash : Bytes → Bytes
  submitQueueLimit : ℤ

/-- For how long a key is remembered, in seconds. -/
def idempotencyWindow : ℚ := 24 * 3600

/-- The bytes of a header as a text, if all of them are visible ASCII. -/
def headerText (value : Bytes) : Option String :=
  if value.all fun b => (32 ≤ b && b < 127) || b == 9 then
    some (String.ofList (value.map fun b => Char.ofNat b.toNat))
  else none

/-- What is hashed of a request. -/
def idempotencyInput (req : SubmissionRequest) : Bytes :=
  "zerocode/idem/v1\x00".toUTF8.toList ++ toLeBytes 4 req.languageId ++ toLeBytes 8 req.sourceCode.length ++
    req.sourceCode ++
      match req.stdin with
      | some stdin => 1 :: toLeBytes 8 stdin.length ++ stdin
      | none => [0]

/-- What a lookup finds. -/
structure IdempotencyHit where
  token : Token
  bodyMatches : Bool
  deriving DecidableEq, Repr

/-- The row carries the key and is not older than a day. -/
def remembers (now : ℚ) (key : String) (r : Row) : Bool :=
  r.idempotencyKey == some key && decide (now - idempotencyWindow < r.createdAt)

/-- Look a key up. Any one of the rows that remember it may be returned: here the one with the given token. -/
def findByIdempotencyKey (rows : List Row) (now : ℚ) (key : String) (bodyHash : Bytes) :
    Option Token → Option (Option IdempotencyHit)
  | none => if rows.any (remembers now key) then none else some none
  | some token =>
    (rows.find? fun r => r.token == token && remembers now key r).map fun r =>
      some ⟨r.token, r.idempotencyHash == some bodyHash⟩

/-- What the handler answers. -/
inductive CreateReply
  | refused (e : CreateError)
  | cached (sub : Submission)
  | existing (token : Token)
  | idempotencyConflict (existingToken : Token)
  | backpressure (retryAfterSecs : ℕ)
  | failed
  | finished (sub : Submission)
  | created (token : Token)
  deriving DecidableEq, Repr

/-- The request was answered without asking for its key, was shed, or one of its statements failed. -/
def CreateReply.turnedAway : CreateReply → Bool
  | .refused _ | .cached _ | .backpressure _ | .failed => true
  | .existing _ | .idempotencyConflict _ | .finished _ | .created _ => false

/-- Where the handler is. -/
inductive CreatePhase
  | received
  | checkingCache (req : SubmissionRequest) (limits : ResourceLimits)
  | checkingCallback (req : SubmissionRequest) (limits : ResourceLimits)
  | findingKey (req : SubmissionRequest) (limits : ResourceLimits)
  | checkingLoad (req : SubmissionRequest) (limits : ResourceLimits)
  | inserting (req : SubmissionRequest) (limits : ResourceLimits)
  | notifying (token : Token)
  | waiting (token : Token)
  | answered (reply : CreateReply)
  deriving DecidableEq, Repr

/-- One request with its header and its `wait` parameter. `lookedUpAt` and `inserted` are set by its two
statements and read by no step. -/
structure Creation where
  posted : SubmissionRequest
  header : Option Bytes
  wait : Bool
  phase : CreatePhase
  lookedUpAt : Option ℚ
  inserted : Option (ℚ × Token)
  deriving DecidableEq, Repr

/-- The key of a request. A header that is no text counts as none. -/
def Creation.key (c : Creation) : Option String := c.header.bind headerText

/-- What the handler does next, with what it meets there. -/
inductive CreateStep
  | prepare
  | checkCache (hit : Option Submission)
  | checkCallback
  | findKey (found : Option Token) (ok : Bool)
  | checkLoad (queueDepth : ℤ)
  | insert (milliseconds random : ℕ) (reply : Reply)
  | notify (ok : Bool)
  | wait (ok : Bool) (sub : Option Submission)
  deriving DecidableEq, Repr

/-- One step of a request: the table after it, and the request. -/
def Creation.step (env : CreateEnv) (store : Fleet) (c : Creation) : CreateStep → Option (Fleet × Creation)
  | .prepare =>
    match c.phase with
    | .received =>
      match c.posted.prepare env.api with
      | .ok (req, limits) => some (store, { c with phase := .checkingCache req limits })
      | .error e => some (store, { c with phase := .answered (.refused e) })
    | _ => none
  | .checkCache hit =>
    match c.phase with
    | .checkingCache req limits =>
      match hit with
      | some sub => some (store, { c with phase := .answered (.cached sub) })
      | none => some (store, { c with phase := .checkingCallback req limits })
    | _ => none
  | .checkCallback =>
    match c.phase with
    | .checkingCallback req limits =>
      match (req.callbackUrl.map env.validateCallbackUrl).getD (.ok ()) with
      | .ok () => some (store, { c with phase := .findingKey req limits })
      | .error msg => some (store, { c with phase := .answered (.refused (.validation msg)) })
    | _ => none
  | .findKey found ok =>
    match c.phase with
    | .findingKey req limits =>
      match c.key with
      | none => some (store, { c with phase := .checkingLoad req limits })
      | some key =>
        if ok then
          (findByIdempotencyKey store.rows store.now key (env.hash (idempotencyInput req)) found).map fun
            | none => (store, { c with phase := .checkingLoad req limits, lookedUpAt := some store.now })
            | some hit =>
              let reply := if hit.bodyMatches then .existing hit.token else .idempotencyConflict hit.token
              (store, { c with phase := .answered reply, lookedUpAt := some store.now })
        else some (store, { c with phase := .answered .failed })
    | _ => none
  | .checkLoad queueDepth =>
    match c.phase with
    | .checkingLoad req limits =>
      if 0 < env.submitQueueLimit ∧ env.submitQueueLimit < queueDepth then
        some (store, { c with phase := .answered (.backpressure 5) })
      else some (store, { c with phase := .inserting req limits })
    | _ => none
  | .insert milliseconds random reply =>
    match c.phase with
    | .inserting req limits =>
      let token := Token.new milliseconds random
      let new := req.newSubmission limits token c.key (env.hash (idempotencyInput req))
      if reply.committed then
        let phase := if reply = .acknowledged then .notifying token else .answered .failed
        (store.step (.insert new)).map fun store =>
          (store, { c with phase := phase, inserted := some (store.now, token) })
      else some (store, { c with phase := .answered .failed })
    | _ => none
  | .notify ok =>
    match c.phase with
    | .notifying token =>
      if !ok then some (store, { c with phase := .answered .failed })
      else if c.wait then some (store, { c with phase := .waiting token })
      else some (store, { c with phase := .answered (.created token) })
    | _ => none
  | .wait ok sub =>
    match c.phase with
    | .waiting token =>
      match ok, sub with
      | false, _ => some (store, { c with phase := .answered .failed })
      | true, some sub => some (store, { c with phase := .answered (.finished sub) })
      | true, none => some (store, { c with phase := .answered (.created token) })
    | _ => none

/-- A service that takes a callback URL as it is, hashes nothing away and sheds no load. -/
def pythonEnv : CreateEnv := ⟨pythonState, fun _ => .ok (), id, 0⟩

end ZeroCode.Api
