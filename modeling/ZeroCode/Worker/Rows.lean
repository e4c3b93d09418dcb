import ZeroCode.Foundation.Table
import ZeroCode.Sandbox.Outcome

/-!
# Rows of the submissions table

The statements by which the API and the workers change the table. Each is atomic. The
columns are those the statements write or read; times are seconds, and a column of type
`REAL` holds the exact number. The two writes of a worker select their row by the token
alone, whatever the row holds by then.
-/

namespace ZeroCode.Worker

open ZeroCode.Core ZeroCode.Foundation ZeroCode.Sandbox

/-- The texts of the `status` column. -/
inductive StatusKind
  | queued
  | processing
  | accepted
  | timeLimitExceeded
  | compileError
  | memoryLimitExceeded
  | outputLimitExceeded
  | runtimeError
  | nonZeroExit
  | sandboxFailure
  | internalError
  | cancelled
  | expired
  deriving DecidableEq, Repr

/-- The text of a status kind. -/
def StatusKind.text : StatusKind → String
  | .queued => "queued"
  | .processing => "processing"
  | .accepted => "accepted"
  | .timeLimitExceeded => "time_limit_exceeded"
  | .compileError => "compile_error"
  | .memoryLimitExceeded => "memory_limit_exceeded"
  | .outputLimitExceeded => "output_limit_exceeded"
  | .runtimeError => "runtime_error"
  | .nonZeroExit => "non_zero_exit"
  | .sandboxFailure => "sandbox_failure"
  | .internalError => "internal_error"
  | .cancelled => "cancelled"
  | .expired => "expired"

/-- A row with this status has left the queue and its worker. -/
def StatusKind.isTerminal : StatusKind → Bool
  | .queued | .processing => false
  | _ => true

/-- The JSON values of the `status_detail` column: a text, a number, or a named signal. -/
inductive StatusDetail
  | text (value : String)
  | number (value : Int)
  | signal (name : String) (raw : Option Int)
  deriving DecidableEq, Repr

/-- The JSON form of a signal. -/
def signalDetail : Signal → StatusDetail
  | .sigsegv => .signal "sigsegv" none
  | .sigfpe => .signal "sigfpe" none
  | .sigabrt => .signal "sigabrt" none
  | .sigxfsz => .signal "sigxfsz" none
  | .sigpipe => .signal "sigpipe" none
  | .sigkill => .signal "sigkill" none
  | .sigterm => .signal "sigterm" none
  | .sigill => .signal "sigill" none
  | .sigbus => .signal "sigbus" none
  | .other n => .signal "other" (some n)

/-- Encode a status as the pair of columns that hold it. -/
def encodeStatus : Status → StatusKind × Option StatusDetail
  | .queued => (.queued, none)
  | .processing => (.processing, none)
  | .accepted => (.accepted, none)
  | .timeLimitExceeded .wall => (.timeLimitExceeded, some (.text "wall"))
  | .timeLimitExceeded .cpu => (.timeLimitExceeded, some (.text "cpu"))
  | .compileError => (.compileError, none)
  | .memoryLimitExceeded => (.memoryLimitExceeded, none)
  | .outputLimitExceeded => (.outputLimitExceeded, none)
  | .runtimeError sig => (.runtimeError, some (signalDetail sig))
  | .nonZeroExit code => (.nonZeroExit, some (.number code))
  | .sandboxFailure => (.sandboxFailure, none)
  | .internalError => (.internalError, none)
  | .cancelled => (.cancelled, none)
  | .expired => (.expired, none)

/-- Encode a signal as its number. -/
def encodeSignal : Option Signal → Option Int
  | none => none
  | some .sigill => some 4
  | some .sigabrt => some 6
  | some .sigbus => some 7
  | some .sigfpe => some 8
  | some .sigkill => some 9
  | some .sigsegv => some 11
  | some .sigpipe => some 13
  | some .sigterm => some 15
  | some .sigxfsz => some 25
  | some (.other n) => some n

/-- A duration in seconds. -/
def asSecs (d : Duration) : ℚ := d / 1000000000

/-- One submission. -/
structure Row where
  token : Token
  languageId : ℕ
  sourceCode : Bytes
  stdin : Option Bytes
  cpuTimeLimit : ℚ
  wallTimeLimit : ℚ
  memoryLimitMb : ℕ
  maxPids : ℕ
  enableNetwork : Bool
  status : StatusKind
  statusDetail : Option StatusDetail
  stdout : Option Bytes
  stderr : Option Bytes
  compileOutput : Option Bytes
  exitCode : Option Int
  signal : Option Int
  cpuTime : Option ℚ
  wallTime : Option ℚ
  compileTime : Option ℚ
  memoryKb : Option ℕ
  callbackUrl : Option String
  idempotencyKey : Option String
  idempotencyHash : Option Bytes
  batchId : Option String
  claimedAt : Option ℚ
  workerId : Option String
  createdAt : ℚ
  finishedAt : Option ℚ
  deriving DecidableEq, Repr

/-- What the API inserts. -/
structure NewSubmission where
  token : Token
  languageId : ℕ
  sourceCode : Bytes
  stdin : Option Bytes
  limits : ResourceLimits
  callbackUrl : Option String
  idempotencyKey : Option String
  idempotencyHash : Option Bytes
  batchId : Option String
  deriving DecidableEq, Repr

/-- What a worker gets from a claim. -/
structure ClaimedJob where
  token : Token
  languageId : ℕ
  sourceCode : Bytes
  stdin : Bytes
  limits : ResourceLimits
  callbackUrl : Option String
  deriving DecidableEq, Repr

/-- The row of a new submission. -/
def NewSubmission.row (new : NewSubmission) (now : ℚ) : Row where
  token := new.token
  languageId := new.languageId
  sourceCode := new.sourceCode
  stdin := new.stdin
  cpuTimeLimit := new.limits.cpuTime
  wallTimeLimit := new.limits.wallTime
  memoryLimitMb := new.limits.memoryMb
  maxPids := new.limits.maxPids
  enableNetwork := new.limits.enableNetwork
  status := .queued
  statusDetail := none
  stdout := none
  stderr := none
  compileOutput := none
  exitCode := none
  signal := none
  cpuTime := none
  wallTime := none
  compileTime := none
  memoryKb := none
  callbackUrl := new.callbackUrl
  idempotencyKey := new.idempotencyKey
  idempotencyHash := new.idempotencyHash
  batchId := new.batchId
  claimedAt := none
  workerId := none
  createdAt := now
  finishedAt := none

/-- Insert a submission; the token is unique. -/
def insertSubmission (rows : List Row) (now : ℚ) (new : NewSubmission) : Option (List Row) :=
  if new.token ∈ rows.map Row.token then none else some (rows ++ [new.row now])

/-- The row is queued and not locked by another statement. -/
def Row.free (locked : List Token) (r : Row) : Bool := r.status == .queued && !locked.contains r.token

/-- The job a claim returns. -/
def Row.claimedJob (r : Row) : ClaimedJob where
  token := r.token
  languageId := r.languageId
  sourceCode := r.sourceCode
  stdin := r.stdin.getD []
  limits :=
    { cpuTime := r.cpuTimeLimit
      wallTime := r.wallTimeLimit
      memoryMb := r.memoryLimitMb
      maxPids := r.maxPids
      maxStdout := 64 * 1024
      maxStderr := 64 * 1024
      enableNetwork := r.enableNetwork }
  callbackUrl := r.callbackUrl

/-- A claimed row. -/
def Row.claim (now : ℚ) (workerId : String) (r : Row) : Row :=
  { r with status := .processing, claimedAt := some now, workerId := some workerId }

/-- Claim the given row, one of the oldest free ones, for a worker. Rows of one age may be
claimed in any order. -/
def claimNext (rows : List Row) (now : ℚ) (workerId : String) (locked : List Token) (token : Token) :
    Option (List Row × ClaimedJob) :=
  match rows.find? fun r => r.token == token && r.free locked with
  | none => none
  | some next =>
    if rows.all fun r => !r.free locked || next.createdAt ≤ r.createdAt then
      some (updateWhere (fun r => r.token == token) (Row.claim now workerId) rows, next.claimedJob)
    else none

/-- Write the result of a submission. -/
def writeResult (rows : List Row) (now : ℚ) (token : Token) (result : SandboxResult) : List Row :=
  updateWhere (fun r => r.token == token) (fun r =>
    { r with
      status := (encodeStatus result.status).1
      statusDetail := (encodeStatus result.status).2
      stdout := some result.stdout
      stderr := some result.stderr
      compileOutput := result.compileOutput
      exitCode := result.exitCode
      signal := encodeSignal result.signal
      cpuTime := some (asSecs result.cpuTime)
      wallTime := some (asSecs result.wallTime)
      memoryKb := some result.memoryKb
      compileTime := if result.compileTime = 0 then none else some (asSecs result.compileTime)
      finishedAt := some now }) rows

/-- Mark a submission as failed at the level of the sandbox. -/
def writeSandboxFailure (rows : List Row) (now : ℚ) (token : Token) (elapsed : ℚ) : List Row :=
  updateWhere (fun r => r.token == token) (fun r =>
    { r with
      status := .sandboxFailure
      statusDetail := none
      wallTime := some elapsed
      finishedAt := some now }) rows

/-- The claim of the row is older than its own threshold. -/
def Row.stale (now : ℚ) (r : Row) : Bool :=
  r.status == .processing && match r.claimedAt with
    | some claimedAt => claimedAt < now - (60 + 2 * r.wallTimeLimit)
    | none => false

/-- Return the rows whose claim is stale to the queue. -/
def sweepStale (rows : List Row) (now : ℚ) : List Row :=
  updateWhere (Row.stale now) (fun r => { r with status := .queued, claimedAt := none, workerId := none }) rows

/-- Inserting a submission of a fresh token keeps the tokens of the table unique. -/
theorem nodup_tokens_insert {rows : List Row} {now : ℚ} {new : NewSubmission}
    (hunique : (rows.map Row.token).Nodup) (hfresh : new.token ∉ rows.map Row.token) :
    ((rows ++ [new.row now]).map Row.token).Nodup := by
  simp only [List.map_append, List.map_cons, List.map_nil]
  refine List.nodup_append.mpr ⟨hunique, List.nodup_singleton _, fun a ha b hb => ?_⟩
  intro hsame
  subst hsame
  rw [List.mem_singleton.mp hb] at ha
  exact hfresh ha

/-- A claim changes only the row it names, which was queued. -/
theorem claimNext_spec {rows rows' : List Row} {now : ℚ} {workerId : String} {locked : List Token} {token : Token}
    {job : ClaimedJob} (h : claimNext rows now workerId locked token = some (rows', job)) :
    (∃ next ∈ rows, next.token = token ∧ next.status = .queued ∧ next.claimedJob = job) ∧
      rows' = updateWhere (fun r => r.token == token) (Row.claim now workerId) rows := by
  unfold claimNext at h
  split at h
  · cases h
  · rename_i next hfind
    split at h
    · cases h
      have hfree := List.find?_some hfind
      simp only [Row.free, Bool.and_eq_true, beq_iff_eq] at hfree
      exact ⟨⟨next, List.mem_of_find?_eq_some hfind, hfree.1, hfree.2.1, rfl⟩, rfl⟩
    · cases h

/-- A stale row is being processed. -/
theorem Row.status_of_stale {now : ℚ} {r : Row} (h : r.stale now = true) : r.status = .processing := by
  simp only [Row.stale, Bool.and_eq_true, beq_iff_eq] at h
  exact h.1

end ZeroCode.Worker
