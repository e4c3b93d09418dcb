import ZeroCode.Api.Views
import ZeroCode.Worker.Retention

/-!
# Gradeable responses

A response that calls its status a verdict is compared with an expected output, so it has
to carry what the worker wrote with that status. Every write of a worker sets the status
and the outputs together, and no other statement of the worker or the API touches either
of them afterwards without leaving the row unfinished. The scrub blanks the outputs and
leaves the status alone: a verdict whose payload is past its TTL is still called one.
-/

namespace ZeroCode.Api

open ZeroCode.Core ZeroCode.Foundation ZeroCode.Sandbox ZeroCode.Worker

/-- The system with the result that was last written for each token, unless a failure was written since. -/
structure Graded where
  fleet : Fleet
  written : Token → Option SandboxResult

/-- Nothing was written yet. -/
def Graded.init : Graded := ⟨Fleet.init, fun _ => none⟩

/-- Remember what a write of a worker wrote. -/
def recordWrite (s : Fleet) (written : Token → Option SandboxResult) : StoreAction → Token → Option SandboxResult
  | .fleet (.writeResult i reply) =>
    match s.task i with
    | some task =>
      match task.phase with
      | .writing result => if reply.committed then Function.update written task.job.token (some result) else written
      | _ => written
    | none => written
  | .fleet (.writeSandboxFailure i _ reply) =>
    match s.task i with
    | some task => if reply.committed then Function.update written task.job.token none else written
    | none => written
  | _ => written

/-- One step of the system, with its writes remembered. -/
def Graded.step (s : Graded) (a : StoreAction) : Option Graded :=
  (storeStep s.fleet a).map fun fleet => ⟨fleet, recordWrite s.fleet s.written a⟩

/-- The columns of the row hold a judgement about the code. -/
def Row.isVerdict (r : Row) : Bool :=
  match statusOfColumns r.status r.statusDetail with
  | some status => status.isVerdict
  | none => false

/-- No scrub meets a judgement that is past the payload TTL. -/
def SparesVerdicts (s : Graded) : StoreAction → Prop
  | .scrubPayloads config =>
    ∀ r ∈ s.fleet.rows, r.finishedBefore s.fleet.now config.payloadTtl = true → Row.isVerdict r = false
  | _ => True

instance (s : Graded) (a : StoreAction) : Decidable (SparesVerdicts s a) :=
  match a with
  | .scrubPayloads config =>
    inferInstanceAs (Decidable
      (∀ r ∈ s.fleet.rows, r.finishedBefore s.fleet.now config.payloadTtl = true → Row.isVerdict r = false))
  | .fleet _ | .expireOldRows _ => isTrue trivial

/-- The row carries the outputs of the result with which its judgement was written. -/
def CarriesOutput (written : Token → Option SandboxResult) (r : Row) : Prop :=
  ∀ status, statusOfColumns r.status r.statusDetail = some status → status.isVerdict = true →
    ∃ result, written r.token = some result ∧ result.status = status ∧ r.stdout = some result.stdout ∧
      r.stderr = some result.stderr ∧ r.compileOutput = result.compileOutput

/-- A row that is not terminal is no judgement. -/
theorem CarriesOutput.of_open {written : Token → Option SandboxResult} {r : Row}
    (hopen : r.status.isTerminal = false) : CarriesOutput written r := by
  intro status hstatus hverdict
  rw [← isTerminal_of_statusOfColumns hstatus, Status.isTerminal_of_isVerdict hverdict] at hopen
  cases hopen

/-- A row whose columns hold no judgement. -/
theorem CarriesOutput.of_not_verdict {written : Token → Option SandboxResult} {r : Row}
    (hverdict : Row.isVerdict r = false) : CarriesOutput written r := by
  intro status hstatus htrue
  rw [Row.isVerdict, hstatus] at hverdict
  exact absurd htrue (Bool.eq_false_iff.mp hverdict)

/-- A row with another token than the one that was written. -/
theorem CarriesOutput.update_of_ne {written : Token → Option SandboxResult} {r : Row} (h : CarriesOutput written r)
    {token : Token} (hne : r.token ≠ token) (value : Option SandboxResult) :
    CarriesOutput (Function.update written token value) r := by
  intro status hstatus hverdict
  rw [Function.update_of_ne hne]
  exact h status hstatus hverdict

/-- The write of a result leaves the outputs of that result. -/
theorem carriesOutput_writeResult {written : Token → Option SandboxResult} {rows : List Row}
    (h : ∀ r ∈ rows, CarriesOutput written r) (now : ℚ) (token : Token) (result : SandboxResult) (r : Row)
    (hr : r ∈ writeResult rows now token result) :
    CarriesOutput (Function.update written token (some result)) r := by
  rcases mem_updateWhere hr with ⟨hold, hother⟩ | ⟨old, _, hselected, rfl⟩
  · exact (h r hold).update_of_ne (by simpa using hother) _
  · obtain rfl := beq_iff_eq.mp hselected
    intro status hstatus _
    have hsame : some result.status = some status := (statusOfColumns_encodeStatus result.status).symm.trans hstatus
    exact ⟨result, Function.update_self _ _ _, Option.some.inj hsame, rfl, rfl, rfl⟩

/-- The write of a failure leaves no judgement. -/
theorem carriesOutput_writeSandboxFailure {written : Token → Option SandboxResult} {rows : List Row}
    (h : ∀ r ∈ rows, CarriesOutput written r) (now : ℚ) (token : Token) (elapsed : ℚ) (r : Row)
    (hr : r ∈ writeSandboxFailure rows now token elapsed) :
    CarriesOutput (Function.update written token none) r := by
  rcases mem_updateWhere hr with ⟨hold, hother⟩ | ⟨old, _, _, rfl⟩
  · exact (h r hold).update_of_ne (by simpa using hother) _
  · exact .of_not_verdict rfl

/-- Every step of the workers and the API leaves each row with the outputs of its judgement. -/
theorem carriesOutput_of_step {s t : Fleet} {written : Token → Option SandboxResult} {a : FleetAction}
    (h : ∀ r ∈ s.rows, CarriesOutput written r) (hstep : s.step a = some t) (r : Row) (hr : r ∈ t.rows) :
    CarriesOutput (recordWrite s written (.fleet a)) r := by
  cases Fleet.effect_of_step hstep with
  | insert new hfresh =>
    exact forall_mem_concat h (.of_open rfl) r hr
  | claim workerId locked next hnext hqueued => exact forall_mem_updateWhere h (fun _ _ _ => .of_open rfl) r hr
  | claimLost workerId locked next hnext hqueued => exact forall_mem_updateWhere h (fun _ _ _ => .of_open rfl) r hr
  | claimFailed => exact h r hr
  | publishProcessing i ok task htask hphase => exact h r hr
  | execute i result task htask hphase => exact h r hr
  | executeFailed i task htask hphase => exact h r hr
  | writeResult i reply hcommitted task htask result hphase =>
    have hrecord : recordWrite s written (.fleet (.writeResult i reply)) =
        Function.update written task.job.token (some result) := by
      simp [recordWrite, htask, hphase, hcommitted]
    rw [hrecord]
    exact carriesOutput_writeResult h s.now task.job.token result r hr
  | writeResultFailed i task htask result hphase =>
    have hrecord : recordWrite s written (.fleet (.writeResult i .failed)) = written := by
      simp [recordWrite, htask, hphase, Reply.committed]
    rw [hrecord]
    exact h r hr
  | writeSandboxFailure i elapsed reply hcommitted task htask hphase =>
    have hrecord : recordWrite s written (.fleet (.writeSandboxFailure i elapsed reply)) =
        Function.update written task.job.token none := by
      simp [recordWrite, htask, hcommitted]
    rw [hrecord]
    exact carriesOutput_writeSandboxFailure h s.now task.job.token elapsed r hr
  | writeSandboxFailureFailed i elapsed task htask hphase =>
    have hrecord : recordWrite s written (.fleet (.writeSandboxFailure i elapsed .failed)) = written := by
      simp [recordWrite, htask, Reply.committed]
    rw [hrecord]
    exact h r hr
  | publishFinished i ok task htask status hphase => exact h r hr
  | crash i task htask => exact h r hr
  | sweep => exact forall_mem_updateWhere h (fun _ _ _ => .of_open rfl) r hr
  | tick elapsed hnonneg => exact h r hr

/-- A step that spares the judgements keeps each row with the outputs of its own. -/
theorem Graded.carriesOutput_of_step {s t : Graded} {a : StoreAction}
    (h : ∀ r ∈ s.fleet.rows, CarriesOutput s.written r) (hspares : SparesVerdicts s a) (hstep : s.step a = some t)
    (r : Row) (hr : r ∈ t.fleet.rows) : CarriesOutput t.written r := by
  obtain ⟨fleet, hfleet, rfl⟩ := Option.map_eq_some_iff.mp hstep
  cases a with
  | fleet a => exact ZeroCode.Api.carriesOutput_of_step h hfleet r hr
  | scrubPayloads config =>
    cases hfleet
    refine forall_mem_updateWhere h (fun old hold hselected => ?_) r hr
    rw [Bool.and_eq_true] at hselected
    exact .of_not_verdict (hspares old hold hselected.1)
  | expireOldRows config =>
    cases hfleet
    exact h r (List.mem_of_mem_filter hr)

/-- In a run in which no scrub meets a judgement past the payload TTL, a view that calls its status a verdict
carries the outputs the worker wrote with it, and a view without outputs is no verdict. -/
theorem verdict_carries_output {P : Type} (present : Bytes → P) {s : Graded}
    (reached : Reaches Graded.step SparesVerdicts Graded.init s) {sub : Submission} (hreads : Reads s.fleet.rows sub) :
    ((SubmissionView.of present sub).verdict = true →
      ∃ result, s.written sub.token = some result ∧ result.status = (SubmissionView.of present sub).status ∧
        (SubmissionView.of present sub).stdout = some (present result.stdout) ∧
          (SubmissionView.of present sub).stderr = some (present result.stderr) ∧
            (SubmissionView.of present sub).compileOutput = result.compileOutput.map present) ∧
      ((SubmissionView.of present sub).stdout = none → (SubmissionView.of present sub).verdict = false) := by
  have h : ∀ r ∈ s.fleet.rows, CarriesOutput s.written r := by
    refine reached.invariant (fun s => ∀ r ∈ s.fleet.rows, CarriesOutput s.written r) ?_ ?_
    · intro r hr
      cases hr
    · exact fun s a t h hspares hstep r hr => Graded.carriesOutput_of_step h hspares hstep r hr
  obtain ⟨r, hr, hread⟩ := hreads.exists_row
  have hcarries : sub.status.isVerdict = true → ∃ result, s.written sub.token = some result ∧
      result.status = sub.status ∧ sub.stdout = some result.stdout ∧ sub.stderr = some result.stderr ∧
        sub.compileOutput = result.compileOutput := by
    unfold readRow parseStatus at hread
    split at hread
    · rename_i status hstatus
      cases hread
      exact h r hr status hstatus
    · cases hread
  constructor
  · intro hverdict
    obtain ⟨result, hwritten, hstatus, hstdout, hstderr, hcompile⟩ := hcarries hverdict
    exact ⟨result, hwritten, hstatus, by simp [SubmissionView.of, hstdout], by simp [SubmissionView.of, hstderr],
      by simp [SubmissionView.of, hcompile]⟩
  · intro hstdout
    cases hverdict : sub.status.isVerdict with
    | false => exact hverdict
    | true =>
      obtain ⟨result, _, _, hout, _, _⟩ := hcarries hverdict
      simp [SubmissionView.of, hout] at hstdout

/-- The submission that a read by token shows, if it shows one. -/
def shownSubmission (rows : List Row) (token : Token) : Option Submission :=
  match fetchSubmission rows token with
  | .ok sub => sub
  | .error _ => none

/-- What a read by token shows is read. -/
theorem reads_of_shownSubmission {rows : List Row} {token : Token} {sub : Submission}
    (h : shownSubmission rows token = some sub) : Reads rows sub := by
  refine .get token ?_
  unfold shownSubmission at h
  split at h
  · rename_i hfetch
    rw [hfetch, h]
  · cases h

/-- A submission is executed, and a scrub comes within the hour. -/
def freshRun : List StoreAction :=
  [.fleet (.insert (pythonRequest.newSubmission .default 7 none [])), .fleet (.claim "w" [] 7 .acknowledged),
    .fleet (.publishProcessing 0 true), .fleet (.execute 0 (some acceptedResult)), .fleet (.writeResult 0 .acknowledged),
    .scrubPayloads defaultRetention]

/-- The system after that run. -/
def freshGraded : Graded := lastState (checkedStep Graded.step SparesVerdicts) Graded.init freshRun

/-- Its submission is shown as a verdict, with the output that was written. -/
theorem verdict_carries_output_freshRun :
    ∃ sub, shownSubmission freshGraded.fleet.rows 7 = some sub ∧ (SubmissionView.of id sub).verdict = true ∧
      ((SubmissionView.of id sub).verdict = true →
        ∃ result, freshGraded.written sub.token = some result ∧ result.status = (SubmissionView.of id sub).status ∧
          (SubmissionView.of id sub).stdout = some (id result.stdout) ∧
            (SubmissionView.of id sub).stderr = some (id result.stderr) ∧
              (SubmissionView.of id sub).compileOutput = result.compileOutput.map id) ∧
        ((SubmissionView.of id sub).stdout = none → (SubmissionView.of id sub).verdict = false) := by
  have hshown : (shownSubmission freshGraded.fleet.rows 7).isSome = true := by decide +kernel
  have hverdict : ((shownSubmission freshGraded.fleet.rows 7).map fun sub => (SubmissionView.of id sub).verdict) =
      some true := by decide +kernel
  obtain ⟨sub, hsub⟩ := Option.isSome_iff_exists.mp hshown
  rw [hsub] at hverdict
  refine ⟨sub, hsub, Option.some.inj hverdict, verdict_carries_output id ?_ (reads_of_shownSubmission hsub)⟩
  exact .of_runActions freshRun (runActions_eq_lastState (by decide +kernel))

/-- The same submission, with a scrub after the hour. -/
def scrubbedRun : List StoreAction :=
  [.fleet (.insert (pythonRequest.newSubmission .default 7 none [])), .fleet (.claim "w" [] 7 .acknowledged),
    .fleet (.publishProcessing 0 true), .fleet (.execute 0 (some acceptedResult)), .fleet (.writeResult 0 .acknowledged),
    .fleet (.tick 4000), .scrubPayloads defaultRetention]

/-- After the scrub the submission is still shown as a verdict, without the output that was written. -/
theorem verdict_without_output :
    ¬ ∀ s : Graded, Reachable Graded.step Graded.init s → ∀ sub, Reads s.fleet.rows sub →
      ((SubmissionView.of id sub).verdict = true →
        ∃ result, s.written sub.token = some result ∧ result.status = (SubmissionView.of id sub).status ∧
          (SubmissionView.of id sub).stdout = some (id result.stdout) ∧
            (SubmissionView.of id sub).stderr = some (id result.stderr) ∧
              (SubmissionView.of id sub).compileOutput = result.compileOutput.map id) ∧
        ((SubmissionView.of id sub).stdout = none → (SubmissionView.of id sub).verdict = false) := by
  intro h
  have hview : ((shownSubmission (lastState Graded.step Graded.init scrubbedRun).fleet.rows 7).map fun sub =>
      ((SubmissionView.of id sub).verdict, (SubmissionView.of id sub).stdout)) = some (true, none) := by decide +kernel
  obtain ⟨sub, hsub, hpair⟩ := Option.map_eq_some_iff.mp hview
  obtain ⟨hverdict, hstdout⟩ := Prod.mk.inj hpair
  have hreached : Reachable Graded.step Graded.init (lastState Graded.step Graded.init scrubbedRun) :=
    .of_runActions scrubbedRun (runActions_eq_lastState (by decide +kernel))
  have hfalse := (h _ hreached sub (reads_of_shownSubmission hsub)).2 hstdout
  rw [hverdict] at hfalse
  cases hfalse

end ZeroCode.Api
