import ZeroCode.Api.Views
import ZeroCode.Core.SinglePrecision
import ZeroCode.Worker.Request

/-!
# The limits that are applied

The limits of a submission are resolved by the handler and stored in five columns, from
which the claim of a worker and the three reads of the API rebuild them. The caps of the
two outputs have no column: the readers put the default there, whatever was resolved. The
other limits come back, times in single precision.
-/

namespace ZeroCode.Api

open ZeroCode.Core ZeroCode.Foundation ZeroCode.Worker

/-- The columns of a row that hold limits. -/
structure LimitColumns where
  cpuTimeLimit : ℚ
  wallTimeLimit : ℚ
  memoryLimitMb : ℤ
  maxPids : ℤ
  enableNetwork : Bool
  deriving DecidableEq, Repr

/-- What the insert stores of the limits. -/
def storedLimits (limits : ResourceLimits) : LimitColumns where
  cpuTimeLimit := toSingle limits.cpuTime
  wallTimeLimit := toSingle limits.wallTime
  memoryLimitMb := asI32 limits.memoryMb
  maxPids := asI32 limits.maxPids
  enableNetwork := limits.enableNetwork

/-- The limits a reader rebuilds from the columns. -/
def LimitColumns.limits (columns : LimitColumns) : ResourceLimits where
  cpuTime := columns.cpuTimeLimit
  wallTime := columns.wallTimeLimit
  memoryMb := asU32 columns.memoryLimitMb
  maxPids := asU32 columns.maxPids
  maxStdout := 64 * 1024
  maxStderr := 64 * 1024
  enableNetwork := columns.enableNetwork

/-- The submission with its limits as they are kept in its row. -/
def stored (new : NewSubmission) : NewSubmission := { new with limits := (storedLimits new.limits).limits }

/-- The system, with the limits that were resolved for each token. -/
structure Persisting where
  store : Fleet
  resolved : Token → Option ResourceLimits

/-- An empty table. -/
def Persisting.init : Persisting := ⟨Fleet.init, fun _ => none⟩

/-- One step of the system. An insert stores the limits in their columns. -/
def Persisting.step (s : Persisting) : StoreAction → Option Persisting
  | .fleet (.insert new) => (storeStep s.store (.fleet (.insert (stored new)))).map fun store =>
    ⟨store, Function.update s.resolved new.token (some new.limits)⟩
  | a => (storeStep s.store a).map fun store => { s with store := store }

/-- The counts of the limits are ones of 32 bits, as the program declares them. -/
def CountsInRange (limits : ResourceLimits) : Prop := limits.memoryMb < 2 ^ 32 ∧ limits.maxPids < 2 ^ 32

/-- The limits of what is inserted were resolved from the defaults of a language and the overrides of a request,
under a ceiling. -/
def InsertsResolved : StoreAction → Prop
  | .fleet (.insert new) => CountsInRange new.limits ∧ ∃ (api : AppState) (spec : LanguageSpec)
      (cpuTime wallTime : Option ℚ) (memoryMb : Option ℕ),
        api.resolveLimits spec cpuTime wallTime memoryMb = .ok new.limits
  | _ => True

/-- The limits reach somebody: the worker that claims the submission, or a client that reads it by its token, in the
list, or with its batch. -/
inductive Reports (s : Fleet) (token : Token) (limits : ResourceLimits) : Prop
  | claim (workerId : String) (locked : List Token) (rows : List Row) (job : ClaimedJob)
    (hclaim : claimNext s.rows s.now workerId locked token = some (rows, job)) (hlimits : job.limits = limits)
  | read (sub : Submission) (hread : Reads s.rows sub) (htoken : sub.token = token) (hlimits : sub.limits = limits)

/-- The limits that arrive are those that were resolved, with times in single precision. -/
structure AppliedAs (resolved limits : ResourceLimits) : Prop where
  cpuTime : limits.cpuTime = toSingle resolved.cpuTime
  wallTime : limits.wallTime = toSingle resolved.wallTime
  memoryMb : limits.memoryMb = resolved.memoryMb
  maxPids : limits.maxPids = resolved.maxPids
  maxStdout : limits.maxStdout = resolved.maxStdout
  maxStderr : limits.maxStderr = resolved.maxStderr
  enableNetwork : limits.enableNetwork = resolved.enableNetwork

/-- Every row holds the columns of the limits that were resolved for its token. -/
def KeepsLimits (s : Persisting) : Prop :=
  ∀ r ∈ s.store.rows, ∃ limits, s.resolved r.token = some limits ∧ CountsInRange limits ∧
    r.claimedJob.limits = (storedLimits limits).limits

/-- The limits of a job depend on the terms of its row only. -/
theorem claimedJob_limits_of_terms {a b : Row} (h : a.terms = b.terms) : a.claimedJob.limits = b.claimedJob.limits := by
  simp only [Row.terms, RowTerms.mk.injEq] at h
  obtain ⟨_, _, hcpu, hwall, hmemory, hpids, hnetwork, _⟩ := h
  simp only [Row.claimedJob, hcpu, hwall, hmemory, hpids, hnetwork]

/-- The limits of the job of an inserted row. -/
theorem claimedJob_limits_stored (new : NewSubmission) (now : ℚ) :
    ((stored new).row now).claimedJob.limits = (storedLimits new.limits).limits := by
  simp only [Row.claimedJob, NewSubmission.row, stored, LimitColumns.limits]

/-- Whoever gets limits gets those of a row. -/
theorem Reports.exists_row {s : Fleet} {token : Token} {limits : ResourceLimits} (h : Reports s token limits) :
    ∃ r ∈ s.rows, r.token = token ∧ limits = r.claimedJob.limits := by
  cases h with
  | claim workerId locked rows job hclaim hlimits =>
    obtain ⟨⟨next, hnext, htoken, _, hjob⟩, _⟩ := claimNext_spec hclaim
    exact ⟨next, hnext, htoken, by rw [← hlimits, ← hjob]⟩
  | read sub hread htoken hlimits =>
    obtain ⟨r, hr, hsub⟩ := hread.exists_row
    unfold readRow at hsub
    cases hstatus : parseStatus r.status r.statusDetail with
    | error e =>
      rw [hstatus] at hsub
      cases hsub
    | ok status =>
      rw [hstatus] at hsub
      cases hsub
      exact ⟨r, hr, htoken, hlimits.symm⟩

/-- An insert keeps the invariant. -/
theorem KeepsLimits.insert {s : Persisting} (h : KeepsLimits s) (new : NewSubmission)
    (hfresh : new.token ∉ s.store.rows.map Row.token) (hrange : CountsInRange new.limits) {store : Fleet}
    (hrows : store.rows = s.store.rows ++ [(stored new).row s.store.now]) :
    KeepsLimits ⟨store, Function.update s.resolved new.token (some new.limits)⟩ := by
  intro r hr
  rw [hrows] at hr
  rcases List.mem_append.mp hr with hold | hnew
  · obtain ⟨limits, hresolved, hkept⟩ := h r hold
    have hne : r.token ≠ new.token := fun hsame => hfresh (hsame ▸ List.mem_map_of_mem hold)
    exact ⟨limits, (Function.update_of_ne hne _ _).trans hresolved, hkept⟩
  · rw [List.mem_singleton.mp hnew]
    exact ⟨new.limits, Function.update_self _ _ _, hrange, claimedJob_limits_stored new s.store.now⟩

/-- A step that inserts nothing keeps the invariant. -/
theorem KeepsLimits.of_store {s : Persisting} (h : KeepsLimits s) {a : StoreAction}
    (hother : ∀ new, a ≠ .fleet (.insert new)) {store : Fleet} (hstore : storeStep s.store a = some store) :
    KeepsLimits { s with store := store } := by
  intro r hr
  rcases exists_terms_of_step hstore hr with ⟨old, hold, hterms⟩ | ⟨new, hinsert, _⟩
  · obtain ⟨limits, hresolved, hrange, hlimits⟩ := h old hold
    have htoken : old.token = r.token := congrArg RowTerms.token hterms
    rw [htoken] at hresolved
    exact ⟨limits, hresolved, hrange, (claimedJob_limits_of_terms hterms).symm.trans hlimits⟩
  · exact absurd hinsert (hother new)

/-- Every step keeps the invariant. -/
theorem KeepsLimits.of_step {s t : Persisting} {a : StoreAction} (h : KeepsLimits s) (hinserts : InsertsResolved a)
    (hstep : s.step a = some t) : KeepsLimits t := by
  by_cases hinsert : ∃ new, a = .fleet (.insert new)
  · obtain ⟨new, rfl⟩ := hinsert
    obtain ⟨store, hstore, rfl⟩ := Option.map_eq_some_iff.mp hstep
    cases requestEffect_of_step hstore with
    | inserted _ hfresh hrows => exact h.insert new hfresh hinserts.1 hrows
    | kept _ hother _ => exact absurd rfl (hother _)
  · have hother : ∀ new, a ≠ .fleet (.insert new) := fun new hsame => hinsert ⟨new, hsame⟩
    have hmap : s.step a = (storeStep s.store a).map fun store => { s with store := store } := by
      unfold Persisting.step
      split
      · exact absurd rfl (hother _)
      · rfl
    rw [hmap] at hstep
    obtain ⟨store, hstore, rfl⟩ := Option.map_eq_some_iff.mp hstep
    exact h.of_store hother hstore

/-- Along every run the rows keep the limits of their submissions. -/
theorem keepsLimits_of_reaches {s : Persisting}
    (reached : Reaches Persisting.step (fun _ a => InsertsResolved a) Persisting.init s) : KeepsLimits s :=
  reached.invariant KeepsLimits (fun _ hr => by cases hr) fun _ _ _ h hinserts hstep => h.of_step hinserts hstep

/-- What comes back from the columns of resolved limits is what was resolved, exactly when the caps of the outputs
are the defaults. -/
theorem appliedAs_storedLimits_iff {resolved : ResourceLimits} (hrange : CountsInRange resolved) :
    AppliedAs resolved (storedLimits resolved).limits ↔
      resolved.maxStdout = 64 * 1024 ∧ resolved.maxStderr = 64 * 1024 := by
  constructor
  · intro h
    exact ⟨h.maxStdout.symm, h.maxStderr.symm⟩
  · rintro ⟨hstdout, hstderr⟩
    have hmemory : (storedLimits resolved).limits.memoryMb = resolved.memoryMb := by
      simp only [LimitColumns.limits, storedLimits, asU32_asI32 hrange.1]
    have hpids : (storedLimits resolved).limits.maxPids = resolved.maxPids := by
      simp only [LimitColumns.limits, storedLimits, asU32_asI32 hrange.2]
    exact ⟨rfl, rfl, hmemory, hpids, hstdout.symm, hstderr.symm, rfl⟩

/-- A worker and all clients get the same limits. -/
theorem reported_limits_agree {s : Persisting}
    (reached : Reaches Persisting.step (fun _ a => InsertsResolved a) Persisting.init s) {token : Token}
    {limits limits' : ResourceLimits} (h : Reports s.store token limits) (h' : Reports s.store token limits') :
    limits = limits' := by
  have hkeeps := keepsLimits_of_reaches reached
  obtain ⟨r, hr, rfl, rfl⟩ := h.exists_row
  obtain ⟨r', hr', htoken, rfl⟩ := h'.exists_row
  obtain ⟨resolved, hresolved, _, hlimits⟩ := hkeeps r hr
  obtain ⟨resolved', hresolved', _, hlimits'⟩ := hkeeps r' hr'
  rw [htoken, hresolved] at hresolved'
  rw [hlimits, hlimits', Option.some.inj hresolved']

/-- Whoever gets the limits of a submission gets those that were resolved for it, exactly when the caps of its
outputs are the defaults. -/
theorem limits_applied_iff {s : Persisting}
    (reached : Reaches Persisting.step (fun _ a => InsertsResolved a) Persisting.init s) {token : Token}
    {resolved limits : ResourceLimits} (hresolved : s.resolved token = some resolved)
    (hreports : Reports s.store token limits) :
    AppliedAs resolved limits ↔ resolved.maxStdout = 64 * 1024 ∧ resolved.maxStderr = 64 * 1024 := by
  obtain ⟨r, hr, rfl, rfl⟩ := hreports.exists_row
  obtain ⟨limits, hlimits, hrange, hrow⟩ := keepsLimits_of_reaches reached r hr
  obtain rfl : resolved = limits := Option.some.inj (hresolved.symm.trans hlimits)
  rw [hrow]
  exact appliedAs_storedLimits_iff hrange

/-- A submission of an empty program with the given cap on its output. -/
def cappedSubmission (maxStdout : ℕ) : NewSubmission :=
  { NewSubmission.blank 1 with limits := { ResourceLimits.default with maxStdout := maxStdout } }

/-- The system once that submission is inserted. -/
def cappedState (maxStdout : ℕ) : Persisting :=
  lastState Persisting.step Persisting.init [.fleet (.insert (cappedSubmission maxStdout))]

/-- A language may have such a cap as its default. -/
theorem insertsResolved_capped (maxStdout : ℕ) : InsertsResolved (.fleet (.insert (cappedSubmission maxStdout))) := by
  refine ⟨⟨(by decide : 128 < 2 ^ 32), (by decide : 64 < 2 ^ 32)⟩, ⟨[], .default, fun _ => .error ""⟩,
    ⟨71, "main.py", none, [], [], some (cappedSubmission maxStdout).limits, none⟩, none, none, none, ?_⟩
  norm_num [AppState.resolveLimits, ResourceLimits.validate, checkRange, cappedSubmission, ResourceLimits.default, bind,
    Except.bind, pure, Except.pure]

/-- The worker that claims the submission. -/
theorem reports_capped (maxStdout : ℕ) :
    Reports (cappedState maxStdout).store 1 (storedLimits (cappedSubmission maxStdout).limits).limits := by
  have hclaim : ∃ rows, claimNext (cappedState maxStdout).store.rows (cappedState maxStdout).store.now "w" [] 1 =
      some (rows, ((stored (cappedSubmission maxStdout)).row 0).claimedJob) := ⟨_, rfl⟩
  obtain ⟨rows, hclaim⟩ := hclaim
  exact .claim "w" [] rows _ hclaim (claimedJob_limits_stored _ _)

/-- The system is reached by inserting the submission. -/
theorem reaches_capped (maxStdout : ℕ) :
    Reaches Persisting.step (fun _ a => InsertsResolved a) Persisting.init (cappedState maxStdout) := by
  refine .of_runActions_forall [.fleet (.insert (cappedSubmission maxStdout))] ?_ (runActions_eq_lastState rfl)
  simpa using insertsResolved_capped maxStdout

/-- The default cap is applied. -/
theorem limits_applied_iff_default :
    AppliedAs (cappedSubmission (64 * 1024)).limits (storedLimits (cappedSubmission (64 * 1024)).limits).limits :=
  (limits_applied_iff (reaches_capped (64 * 1024)) rfl (reports_capped (64 * 1024))).mpr ⟨rfl, rfl⟩

/-- A cap of 256 KiB is not. -/
theorem wide_cap_not_applied :
    ¬ ∀ (s : Persisting) (token : Token) (resolved limits : ResourceLimits),
      Reaches Persisting.step (fun _ a => InsertsResolved a) Persisting.init s → s.resolved token = some resolved →
        Reports s.store token limits → AppliedAs resolved limits := by
  intro h
  have happlied := h (cappedState (256 * 1024)) 1 _ _ (reaches_capped _) rfl (reports_capped _)
  exact absurd happlied.maxStdout (by decide)

end ZeroCode.Api
