import ZeroCode.Worker.Rows

/-!
# Reading a submission back

The API reads a row by its token and turns the two columns that hold the status back into
one. A pair of columns that no status has is an internal error; every other pair gives a
status that is terminal exactly when the text of the first column is.
-/

namespace ZeroCode.Api

open ZeroCode.Core ZeroCode.Foundation ZeroCode.Worker

/-- The errors of the handlers. A database error and the reason a value could not be
deserialized keep no text of their own. -/
inductive ApiError
  | validation (msg : String)
  | notFound
  | db
  | internal (msg : String)
  deriving DecidableEq, Repr

/-- What a client reads of a submission. -/
structure Submission where
  token : Token
  languageId : ℕ
  status : Status
  limits : ResourceLimits
  stdout : Option Bytes
  stderr : Option Bytes
  compileOutput : Option Bytes
  exitCode : Option Int
  signal : Option Signal
  cpuTime : Option ℚ
  compileTime : Option ℚ
  wallTime : Option ℚ
  memoryKb : Option ℕ
  createdAt : ℚ
  finishedAt : Option ℚ
  deriving DecidableEq, Repr

/-- The submission will not change again. -/
def Submission.isDone (sub : Submission) : Bool := sub.status.isTerminal

/-- The signal with this JSON form. -/
def parseSignal : String → Option Int → Option Signal
  | "sigsegv", none => some .sigsegv
  | "sigfpe", none => some .sigfpe
  | "sigabrt", none => some .sigabrt
  | "sigxfsz", none => some .sigxfsz
  | "sigpipe", none => some .sigpipe
  | "sigkill", none => some .sigkill
  | "sigterm", none => some .sigterm
  | "sigill", none => some .sigill
  | "sigbus", none => some .sigbus
  | "other", some n => some (.other n)
  | _, _ => none

/-- The status held by the two columns, if they hold one. -/
def statusOfColumns : StatusKind → Option StatusDetail → Option Status
  | .queued, none => some .queued
  | .processing, none => some .processing
  | .accepted, none => some .accepted
  | .timeLimitExceeded, some (.text "wall") => some (.timeLimitExceeded .wall)
  | .timeLimitExceeded, some (.text "cpu") => some (.timeLimitExceeded .cpu)
  | .compileError, none => some .compileError
  | .memoryLimitExceeded, none => some .memoryLimitExceeded
  | .outputLimitExceeded, none => some .outputLimitExceeded
  | .runtimeError, some (.signal name raw) => (parseSignal name raw).map .runtimeError
  | .nonZeroExit, some (.number code) => some (.nonZeroExit code)
  | .sandboxFailure, none => some .sandboxFailure
  | .internalError, none => some .internalError
  | .cancelled, none => some .cancelled
  | .expired, none => some .expired
  | _, _ => none

/-- Convert the pair of columns back into a status. -/
def parseStatus (kind : StatusKind) (detail : Option StatusDetail) : Except ApiError Status :=
  match statusOfColumns kind detail with
  | some status => .ok status
  | none => .error (.internal ("unparseable status '" ++ kind.text ++ "'"))

/-- Read the submission with this token. -/
def fetchSubmission (rows : List Row) (token : Token) : Except ApiError (Option Submission) :=
  match rows.find? fun r => r.token == token with
  | none => .ok none
  | some r => (parseStatus r.status r.statusDetail).map fun status =>
    some
      { token := r.token
        languageId := r.languageId
        status := status
        limits := r.claimedJob.limits
        stdout := r.stdout
        stderr := r.stderr
        compileOutput := r.compileOutput
        exitCode := r.exitCode
        signal := r.signal.map Signal.fromRaw
        cpuTime := r.cpuTime
        compileTime := r.compileTime
        wallTime := r.wallTime
        memoryKb := r.memoryKb
        createdAt := r.createdAt
        finishedAt := r.finishedAt }

/-- The columns of a status hold that status. -/
theorem statusOfColumns_encodeStatus (s : Status) :
    statusOfColumns (encodeStatus s).1 (encodeStatus s).2 = some s := by
  cases s with
  | timeLimitExceeded kind => cases kind <;> rfl
  | runtimeError sig => cases sig <;> rfl
  | queued => rfl
  | processing => rfl
  | accepted => rfl
  | compileError => rfl
  | memoryLimitExceeded => rfl
  | outputLimitExceeded => rfl
  | nonZeroExit code => rfl
  | sandboxFailure => rfl
  | internalError => rfl
  | cancelled => rfl
  | expired => rfl

/-- Whether the status of a pair of columns is terminal shows in the first one. -/
theorem isTerminal_of_statusOfColumns {kind : StatusKind} {detail : Option StatusDetail} {s : Status}
    (h : statusOfColumns kind detail = some s) : s.isTerminal = kind.isTerminal := by
  unfold statusOfColumns at h
  split at h
  case h_9 name raw =>
    obtain ⟨sig, _, rfl⟩ := Option.map_eq_some_iff.mp h
    rfl
  all_goals
    cases h <;> rfl

/-- A submission that was read is done exactly when its row is terminal. -/
theorem isDone_of_fetchSubmission {rows : List Row} {token : Token} {sub : Submission} {r : Row}
    (hunique : (rows.map Row.token).Nodup) (hfetch : fetchSubmission rows token = .ok (some sub))
    (hr : r ∈ rows) (htoken : r.token = token) : sub.isDone = r.status.isTerminal := by
  unfold fetchSubmission at hfetch
  split at hfetch
  · cases hfetch
  · rename_i found hfound
    have hsame : found = r := by
      have hkey := List.find?_some hfound
      exact eq_of_key_eq hunique (List.mem_of_find?_eq_some hfound) hr (by rw [htoken]; simpa using hkey)
    subst hsame
    unfold parseStatus at hfetch
    split at hfetch
    · rename_i status hstatus
      cases hfetch
      exact isTerminal_of_statusOfColumns hstatus
    · cases hfetch

/-- Only a token without a row is not found. -/
theorem fetchSubmission_eq_none {rows : List Row} {token : Token} (hfetch : fetchSubmission rows token = .ok none)
    (r : Row) (hr : r ∈ rows) : r.token ≠ token := by
  unfold fetchSubmission at hfetch
  split at hfetch
  · rename_i hnone
    simpa using List.find?_eq_none.mp hnone r hr
  · unfold parseStatus at hfetch
    split at hfetch <;> cases hfetch

end ZeroCode.Api
