import ZeroCode.Api.Gradeable
import ZeroCode.Core.StatusJson

/-!
# Responses from the result cache

A verdict is copied into the result cache field by field and shown again from there, in a
shape of its own: the outputs lose the difference between absent and empty, the times and
the memory that between absent and zero, and the signal has no place at all. Every verdict
comes with its times and its memory, so the two shapes agree but for the signal.
-/

namespace ZeroCode.Api

open ZeroCode.Core ZeroCode.Foundation ZeroCode.Sandbox ZeroCode.Worker

/-- What the result cache stores. -/
structure CachedOutcome where
  statusJson : Json
  stdout : Bytes
  stderr : Bytes
  compileOutput : Option Bytes
  exitCode : Option Int
  cpuTime : ℚ
  compileTime : Option ℚ
  wallTime : ℚ
  memoryKb : ℕ

/-- What is stored of a submission. -/
def CachedOutcome.of (sub : Submission) : CachedOutcome where
  statusJson := sub.status.toValue
  stdout := sub.stdout.getD []
  stderr := sub.stderr.getD []
  compileOutput := sub.compileOutput
  exitCode := sub.exitCode
  cpuTime := sub.cpuTime.getD 0
  compileTime := sub.compileTime
  wallTime := sub.wallTime.getD 0
  memoryKb := sub.memoryKb.getD 0

/-- The response shape of a cache hit. -/
structure CachedSubmissionView where
  cached : Bool
  status : Json
  verdict : Bool
  stdout : Bytes
  stderr : Bytes
  compileOutput : Option Bytes
  exitCode : Option Int
  time : ℚ
  compileTime : Option ℚ
  wallTime : ℚ
  memory : ℕ

/-- The view of what is stored. -/
def CachedSubmissionView.of (c : CachedOutcome) : CachedSubmissionView where
  cached := true
  status := c.statusJson
  verdict := true
  stdout := c.stdout
  stderr := c.stderr
  compileOutput := c.compileOutput
  exitCode := c.exitCode
  time := c.cpuTime
  compileTime := c.compileTime
  wallTime := c.wallTime
  memory := c.memoryKb

/-- The fields of a response that report a result; a field that is skipped is absent. -/
structure ResultFields where
  status : Json
  verdict : Bool
  stdout : Option Bytes
  stderr : Option Bytes
  compileOutput : Option Bytes
  exitCode : Option Int
  signal : Option Signal
  time : Option ℚ
  compileTime : Option ℚ
  wallTime : Option ℚ
  memory : Option ℕ

/-- What a fresh response reports. -/
def SubmissionView.resultFields (view : SubmissionView Bytes) : ResultFields where
  status := view.status.toValue
  verdict := view.verdict
  stdout := view.stdout
  stderr := view.stderr
  compileOutput := view.compileOutput
  exitCode := view.exitCode
  signal := view.signal
  time := view.time
  compileTime := view.compileTime
  wallTime := view.wallTime
  memory := view.memory

/-- A payload is skipped when it is empty. -/
def skipEmpty (payload : Bytes) : Option Bytes := if payload.isEmpty then none else some payload

/-- What a response from the cache reports. It has no signal. -/
def CachedSubmissionView.resultFields (view : CachedSubmissionView) : ResultFields where
  status := view.status
  verdict := view.verdict
  stdout := skipEmpty view.stdout
  stderr := skipEmpty view.stderr
  compileOutput := view.compileOutput
  exitCode := view.exitCode
  signal := none
  time := some view.time
  compileTime := view.compileTime
  wallTime := some view.wallTime
  memory := some view.memory

/-- The responses report the same result, absent and empty payloads being one. -/
structure ResultFields.Agree (a b : ResultFields) : Prop where
  status : a.status = b.status
  verdict : a.verdict = b.verdict
  stdout : a.stdout.getD [] = b.stdout.getD []
  stderr : a.stderr.getD [] = b.stderr.getD []
  compileOutput : a.compileOutput.getD [] = b.compileOutput.getD []
  exitCode : a.exitCode = b.exitCode
  signal : a.signal = b.signal
  time : a.time = b.time
  compileTime : a.compileTime = b.compileTime
  wallTime : a.wallTime = b.wallTime
  memory : a.memory = b.memory

/-- A judgement comes with its times and its memory. -/
def Measured (r : Row) : Prop :=
  Row.isVerdict r = true → r.cpuTime.isSome = true ∧ r.wallTime.isSome = true ∧ r.memoryKb.isSome = true

/-- A skipped payload is an empty one. -/
theorem getD_skipEmpty (payload : Bytes) : (skipEmpty payload).getD [] = payload := by
  cases payload <;> rfl

/-- A row that is not terminal is no judgement. -/
theorem isVerdict_of_open {r : Row} (hopen : r.status.isTerminal = false) : Row.isVerdict r = false := by
  unfold Row.isVerdict
  split
  · rename_i status hstatus
    rw [← isTerminal_of_statusOfColumns hstatus] at hopen
    by_contra hverdict
    rw [Status.isTerminal_of_isVerdict (by simpa using hverdict)] at hopen
    cases hopen
  · rfl

/-- A row that is no judgement needs no measures. -/
theorem Measured.of_not_verdict {r : Row} (h : Row.isVerdict r = false) : Measured r := by
  intro hverdict
  rw [h] at hverdict
  cases hverdict

/-- Every step leaves the judgements measured: what writes a judgement writes its measures. -/
theorem measured_of_step {s t : Fleet} {a : StoreAction} (h : ∀ r ∈ s.rows, Measured r)
    (hstep : storeStep s a = some t) (r : Row) (hr : r ∈ t.rows) : Measured r := by
  cases a with
  | scrubPayloads config =>
    cases hstep
    refine forall_mem_updateWhere h (fun old hold _ => ?_) r hr
    exact h old hold
  | expireOldRows config =>
    cases hstep
    exact h r (List.mem_of_mem_filter hr)
  | fleet a =>
    have hfleet : s.step a = some t := hstep
    have reopened {condition : Row → Bool} {f : Row → Row} (hrow : r ∈ updateWhere condition f s.rows)
        (hopen : ∀ r, (f r).status.isTerminal = false) : Measured r :=
      forall_mem_updateWhere h (fun old _ _ => .of_not_verdict (isVerdict_of_open (hopen old))) r hrow
    cases Fleet.effect_of_step hfleet with
    | insert new hfresh =>
      exact forall_mem_concat h (.of_not_verdict rfl) r hr
    | claim workerId locked next hnext hqueued => exact reopened hr fun _ => rfl
    | claimLost workerId locked next hnext hqueued => exact reopened hr fun _ => rfl
    | sweep => exact reopened hr fun _ => rfl
    | writeResult i reply hcommitted task htask result hphase =>
      exact forall_mem_updateWhere h (fun _ _ _ _ => ⟨rfl, rfl, rfl⟩) r hr
    | writeSandboxFailure i elapsed reply hcommitted task htask hphase =>
      exact forall_mem_updateWhere h (fun _ _ _ => .of_not_verdict rfl) r hr
    | claimFailed | publishProcessing | execute | executeFailed | writeResultFailed | writeSandboxFailureFailed
    | publishFinished | crash | tick => exact h r hr

/-- Whatever is read of a judgement comes with its times and its memory. -/
theorem measured_of_reads {s : Fleet} (reached : Reachable storeStep Fleet.init s) {sub : Submission}
    (hreads : Reads s.rows sub) (hverdict : sub.status.isVerdict = true) :
    sub.cpuTime.isSome = true ∧ sub.wallTime.isSome = true ∧ sub.memoryKb.isSome = true := by
  have hrows : ∀ r ∈ s.rows, Measured r := by
    refine reached.invariant (fun s => ∀ r ∈ s.rows, Measured r) ?_ ?_
    · intro r hr
      cases hr
    · exact fun s a t h _ hstep r hr => measured_of_step h hstep r hr
  obtain ⟨r, hr, hread⟩ := hreads.exists_row
  unfold readRow parseStatus at hread
  split at hread
  · rename_i status hstatus
    cases hread
    exact hrows r hr (by rw [Row.isVerdict, hstatus]; exact hverdict)
  · cases hread

/-- A present value is not changed by a default. -/
theorem some_getD_of_isSome {A : Type*} {o : Option A} (h : o.isSome = true) (a : A) : some (o.getD a) = o := by
  obtain ⟨b, rfl⟩ := Option.isSome_iff_exists.mp h
  rfl

/-- Of every verdict that can be read, the response from the cache reports the same result as the fresh one exactly
when no signal ended the program. -/
theorem cached_view_agrees_iff {s : Fleet} (reached : Reachable storeStep Fleet.init s) {sub : Submission}
    (hreads : Reads s.rows sub) (hverdict : sub.status.isVerdict = true) :
    (CachedSubmissionView.of (CachedOutcome.of sub)).resultFields.Agree (SubmissionView.of id sub).resultFields ↔
      sub.signal = none := by
  obtain ⟨hcpu, hwall, hmemory⟩ := measured_of_reads reached hreads hverdict
  constructor
  · intro hagree
    exact hagree.signal.symm
  · intro hsignal
    constructor
    case verdict => exact hverdict.symm
    case stdout =>
      refine (getD_skipEmpty _).trans ?_
      rw [SubmissionView.resultFields, SubmissionView.of, Option.map_id]
      rfl
    case stderr =>
      refine (getD_skipEmpty _).trans ?_
      rw [SubmissionView.resultFields, SubmissionView.of, Option.map_id]
      rfl
    case compileOutput =>
      rw [SubmissionView.resultFields, SubmissionView.of, Option.map_id]
      rfl
    case signal => exact hsignal.symm
    case time => exact some_getD_of_isSome hcpu 0
    case wallTime => exact some_getD_of_isSome hwall 0
    case memory => exact some_getD_of_isSome hmemory 0
    all_goals rfl

/-- A submission is executed with the given result. -/
def judgedRun (result : SandboxResult) : List StoreAction :=
  [.fleet (.insert (pythonRequest.newSubmission .default 7 none [])), .fleet (.claim "w" [] 7 .acknowledged),
    .fleet (.publishProcessing 0 true), .fleet (.execute 0 (some result)), .fleet (.writeResult 0 .acknowledged)]

/-- The system after that run. -/
def judgedFleet (result : SandboxResult) : Fleet := lastState storeStep Fleet.init (judgedRun result)

/-- The result of a program that was killed for a bad access. -/
def segfaultResult : SandboxResult :=
  { acceptedResult with status := .runtimeError .sigsegv, exitCode := none, signal := some .sigsegv }

/-- An accepted program is reported alike. -/
theorem cached_view_agrees_iff_accepted :
    ∃ sub, shownSubmission (judgedFleet acceptedResult).rows 7 = some sub ∧
      (CachedSubmissionView.of (CachedOutcome.of sub)).resultFields.Agree (SubmissionView.of id sub).resultFields := by
  have hshown : ((shownSubmission (judgedFleet acceptedResult).rows 7).map fun sub =>
      (sub.status.isVerdict, sub.signal)) = some (true, none) := by decide +kernel
  obtain ⟨sub, hsub, hpair⟩ := Option.map_eq_some_iff.mp hshown
  obtain ⟨hverdict, hsignal⟩ := Prod.mk.inj hpair
  have hreached : Reachable storeStep Fleet.init (judgedFleet acceptedResult) :=
    .of_runActions (judgedRun acceptedResult) (runActions_eq_lastState (by decide +kernel))
  exact ⟨sub, hsub, (cached_view_agrees_iff hreached (reads_of_shownSubmission hsub) hverdict).mpr hsignal⟩

/-- A killed program loses its signal in the cache. -/
theorem cached_view_loses_signal :
    ¬ ∀ (s : Fleet) (sub : Submission), Reachable storeStep Fleet.init s → Reads s.rows sub →
      sub.status.isVerdict = true →
        (CachedSubmissionView.of (CachedOutcome.of sub)).resultFields.Agree (SubmissionView.of id sub).resultFields := by
  intro h
  have hshown : ((shownSubmission (judgedFleet segfaultResult).rows 7).map fun sub =>
      (sub.status.isVerdict, sub.signal)) = some (true, some .sigsegv) := by decide +kernel
  obtain ⟨sub, hsub, hpair⟩ := Option.map_eq_some_iff.mp hshown
  obtain ⟨hverdict, hsignal⟩ := Prod.mk.inj hpair
  have hreached : Reachable storeStep Fleet.init (judgedFleet segfaultResult) :=
    .of_runActions (judgedRun segfaultResult) (runActions_eq_lastState (by decide +kernel))
  have hagree := (h _ sub hreached (reads_of_shownSubmission hsub) hverdict).signal
  have hlost : none = sub.signal := hagree
  rw [hsignal] at hlost
  cases hlost

end ZeroCode.Api
