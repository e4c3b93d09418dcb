/-!
# Submission statuses

The status vocabulary of a submission and the three predicates the rest of the
system branches on: whether the submission is finished, whether the status judges
the submitted code, and whether resubmitting may change the answer.
-/

namespace ZeroCode.Core

/-- Which of the two time budgets was exceeded. -/
inductive TimeLimitKind
  | wall
  | cpu
  deriving DecidableEq, Repr

/-- The POSIX signals reported distinctly; every other one keeps its number. -/
inductive Signal
  | sigsegv
  | sigfpe
  | sigabrt
  | sigxfsz
  | sigpipe
  | sigkill
  | sigterm
  | sigill
  | sigbus
  | other (n : Int)
  deriving DecidableEq, Repr

/-- Name a raw signal number. -/
def Signal.fromRaw (n : Int) : Signal :=
  match n with
  | 4 => .sigill
  | 6 => .sigabrt
  | 7 => .sigbus
  | 8 => .sigfpe
  | 9 => .sigkill
  | 11 => .sigsegv
  | 13 => .sigpipe
  | 15 => .sigterm
  | 25 => .sigxfsz
  | _ => .other n

/-- The disposition of a submission, terminal except for its first two values. -/
inductive Status
  | queued
  | processing
  | accepted
  | timeLimitExceeded (kind : TimeLimitKind)
  | compileError
  | memoryLimitExceeded
  | outputLimitExceeded
  | runtimeError (signal : Signal)
  | nonZeroExit (code : Int)
  | sandboxFailure
  | internalError
  | cancelled
  | expired
  deriving DecidableEq, Repr

/-- The submission has left the queue and its worker. -/
def Status.isTerminal : Status → Bool
  | .queued | .processing => false
  | _ => true

/-- The status is a judgement about the submitted code. -/
def Status.isVerdict : Status → Bool
  | .accepted | .timeLimitExceeded _ | .compileError | .memoryLimitExceeded
  | .outputLimitExceeded | .runtimeError _ | .nonZeroExit _ => true
  | .queued | .processing | .sandboxFailure | .internalError | .cancelled | .expired => false

/-- Resubmitting identical work may produce a different answer. -/
def Status.isRetryable : Status → Bool
  | .sandboxFailure | .internalError => true
  | _ => false

/-- A judgement about the code is never taken back by the lifecycle. -/
theorem Status.isTerminal_of_isVerdict {s : Status} (h : s.isVerdict = true) :
    s.isTerminal = true := by
  cases s <;> first | rfl | contradiction

/-- Only infrastructure faults are retried, never a judgement about the code. -/
theorem Status.not_isVerdict_of_isRetryable {s : Status} (h : s.isRetryable = true) :
    s.isVerdict = false := by
  cases s <;> first | rfl | contradiction

end ZeroCode.Core
