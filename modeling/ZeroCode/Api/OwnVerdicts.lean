import ZeroCode.Api.KeyConflicts
import ZeroCode.Api.ResultCache
import ZeroCode.Worker.Provenance

/-!
# Whose verdict a request gets

A request is answered from the result cache, with the row of an earlier request that had its
idempotency key, or with a row of its own, which workers may have executed several times.
Whichever it is, and whenever the row is read afterwards, a verdict that reaches the client
is the result of an execution of the program it posted, with the input it posted: the cache
and the keys share results between requests, but only between those whose hashed bytes are
the same.
-/

namespace ZeroCode.Api

open ZeroCode.Cache ZeroCode.Core ZeroCode.Foundation ZeroCode.Sandbox ZeroCode.Worker

/-- The program of a request. A missing input counts as an empty one. -/
def SubmissionRequest.program (req : SubmissionRequest) : ℕ × Bytes × Bytes :=
  (req.languageId, req.sourceCode, req.stdin.getD [])

/-- The submission shows the result, or what a scrub has left of it. -/
structure Submission.Shows (result : SandboxResult) (sub : Submission) : Prop where
  status : sub.status = result.status
  ending : sub.exitCode = result.exitCode ∧ sub.signal = (encodeSignal result.signal).map Signal.fromRaw
  usage : sub.cpuTime = some (asSecs result.cpuTime) ∧ sub.wallTime = some (asSecs result.wallTime) ∧
    sub.memoryKb = some result.memoryKb
  outputs : (sub.stdout = some result.stdout ∧ sub.stderr = some result.stderr ∧
    sub.compileOutput = result.compileOutput) ∨ (sub.stdout = none ∧ sub.stderr = none ∧ sub.compileOutput = none)

/-- If the submission is judged, then by an execution of this program. -/
def OwnVerdict (executes : ClaimedJob → SandboxResult → Prop) (program : ℕ × Bytes × Bytes) (sub : Submission) : Prop :=
  sub.status.isVerdict = true → ∃ job result, executes job result ∧ job.program = program ∧ sub.Shows result

/-- The requests, the table and the cache, with all submissions that were ever inserted. -/
structure Audited (Digest : Type*) where
  caching : Caching Digest
  inserted : List NewSubmission

/-- Nothing has happened yet. -/
def Audited.init {Digest : Type*} : Audited Digest := ⟨.init, []⟩

/-- The table with all submissions that were ever inserted. -/
def Audited.logged {Digest : Type*} (s : Audited Digest) : Logged := ⟨s.caching.store, s.inserted⟩

/-- What a step of a handler inserts. -/
def Creation.inserts (env : CreateEnv) (c : Creation) : CreateStep → List NewSubmission
  | .insert milliseconds random reply =>
    match c.phase with
    | .inserting req limits =>
      if reply.committed then
        [req.newSubmission limits (Token.new milliseconds random) c.key (env.hash (idempotencyInput req))]
      else []
    | _ => []
  | _ => []

/-- What a step inserts. -/
def Caching.inserts {Digest : Type*} (env : CreateEnv) (s : Caching Digest) : CachingAction Digest → List NewSubmission
  | .store (.fleet (.insert new)) => [new]
  | .advance i a => (s.callers[i]?.map fun caller => caller.creation.inserts env a).getD []
  | _ => []

/-- One step of the system, with its inserts remembered. -/
def Audited.step {Digest : Type*} [DecidableEq Digest] (env : CreateEnv) (blake3 : Bytes → Digest)
    (toBits : ℚ → UInt64) (s : Audited Digest) (a : CachingAction Digest) : Option (Audited Digest) :=
  (s.caching.step env blake3 toBits a).map fun caching => ⟨caching, s.caching.inserts env a ++ s.inserted⟩

/-- No token is inserted twice, only requests insert with a key, and what a task returns is what some backend may
return for its job. -/
structure Audited.Genuine {Digest : Type*} (env : CreateEnv) (executes : ClaimedJob → SandboxResult → Prop)
    (s : Audited Digest) (a : CachingAction Digest) : Prop where
  fresh : ∀ new ∈ s.caching.inserts env a, new.token ∉ s.inserted.map NewSubmission.token
  keyless : ∀ new, a = .store (.fleet (.insert new)) → new.idempotencyHash = none
  executed : ∀ i result, a = .store (.fleet (.execute i (some result))) →
    Returned result ∧ ∀ task, s.caching.store.task i = some task → executes task.job result

section Verdicts

variable {Digest : Type*} {env : CreateEnv} {blake3 : Bytes → Digest} {toBits : ℚ → UInt64}
  {executes : ClaimedJob → SandboxResult → Prop}

/-- A step of a handler leaves the table alone or inserts a row, as is remembered. -/
theorem Creation.inserts_of_step {store store' : Fleet} {c c' : Creation} {a : CreateStep}
    (hstep : c.step env store a = some (store', c')) :
    (store' = store ∧ c.inserts env a = []) ∨
      ∃ new, c.inserts env a = [new] ∧ storeStep store (.fleet (.insert new)) = some store' := by
  cases Creation.move_of_step hstep with
  | inserted milliseconds random reply req limits new hat hnew hcommitted hfresh =>
    refine .inr ⟨new, ?_, Fleet.step_insert hfresh⟩
    simp only [Creation.inserts, hat, hcommitted, if_true, hnew]
  | insertFailed milliseconds random reply req limits hat hcommitted =>
    refine .inl ⟨rfl, ?_⟩
    simp only [Creation.inserts, hat, hcommitted, Bool.false_eq_true, if_false]
  | prepared | refused | cacheHit | cacheMiss | callbackAllowed | callbackRefused | keyless | keyUnknown | keyKnown
  | lookupFailed | shed | admitted | notifyFailed | startsWaiting | created | waitFailed | finished | gone =>
    exact .inl ⟨rfl, rfl⟩

/-- A handler that gets its row has remembered the insert. -/
theorem Creation.inserts_of_inserted {store store' : Fleet} {c c' : Creation} {a : CreateStep}
    (hstep : c.step env store a = some (store', c')) (hnone : c.inserted = none) {created : ℚ} {token : Token}
    (hinserted : c'.inserted = some (created, token)) : ∃ req limits, c.phase = .inserting req limits ∧
      c.inserts env a = [req.newSubmission limits token c.key (env.hash (idempotencyInput req))] := by
  have hkept (hsame : c'.inserted = c.inserted) : False := by
    rw [hnone, hinserted] at hsame
    cases hsame
  cases Creation.move_of_step hstep with
  | inserted milliseconds random reply req limits new hat hnew hcommitted hfresh =>
    cases hinserted
    exact ⟨req, limits, hat, by simp only [Creation.inserts, hat, hcommitted, if_true]⟩
  | prepared | refused | cacheHit | cacheMiss | callbackAllowed | callbackRefused | keyless | keyUnknown | keyKnown
  | lookupFailed | shed | admitted | insertFailed | notifyFailed | startsWaiting | created | waitFailed | finished
  | gone => exact (hkept rfl).elim

/-- A request that is told of an existing row has found one that was inserted with its hash. -/
theorem Creation.row_of_existing {store store' : Fleet} {c c' : Creation} {a : CreateStep} {token : Token}
    (hstep : c.step env store a = some (store', c')) (hexisting : c'.phase = .answered (.existing token)) :
    ∃ req limits, c.phase = .findingKey req limits ∧ ∃ r ∈ store.rows, r.token = token ∧
      r.idempotencyHash = some (env.hash (idempotencyInput req)) := by
  cases Creation.move_of_step hstep with
  | keyKnown found hit key req limits hat hkey hfound =>
    refine ⟨req, limits, hat, ?_⟩
    rcases findByIdempotencyKey_spec hfound with ⟨_, hnone, _⟩ | ⟨r, hr, _, _, hhit⟩
    · cases hnone
    · obtain rfl := Option.some_injective _ hhit
      dsimp only at hexisting
      split at hexisting
      · rename_i hmatches
        cases hexisting
        exact ⟨r, hr, rfl, beq_iff_eq.mp hmatches⟩
      · cases hexisting
  | inserted milliseconds random reply req limits new hat hnew hcommitted hfresh =>
    cases reply <;> cases hexisting
  | prepared | refused | cacheHit | cacheMiss | callbackAllowed | callbackRefused | keyless | keyUnknown
  | lookupFailed | shed | admitted | insertFailed | notifyFailed | startsWaiting | created | waitFailed | finished
  | gone => cases hexisting

/-- A request that is told of a finished submission has waited for it. -/
theorem Creation.waited_of_finished {store store' : Fleet} {c c' : Creation} {a : CreateStep} {sub : Submission}
    (hstep : c.step env store a = some (store', c')) (hfinished : c'.phase = .answered (.finished sub)) :
    a = .wait true (some sub) ∧ ∃ token, c.phase = .waiting token := by
  cases Creation.move_of_step hstep with
  | finished sub' token hat =>
    cases hfinished
    exact ⟨rfl, token, hat⟩
  | keyKnown found hit key req limits hat hkey hfound =>
    dsimp only at hfinished
    split at hfinished <;> cases hfinished
  | inserted milliseconds random reply req limits new hat hnew hcommitted hfresh =>
    cases reply <;> cases hfinished
  | prepared | refused | cacheHit | cacheMiss | callbackAllowed | callbackRefused | keyless | keyUnknown
  | lookupFailed | shed | admitted | insertFailed | notifyFailed | startsWaiting | created | waitFailed | gone =>
    cases hfinished

/-- What is read of a row shows what the row shows. -/
theorem shows_of_readRow {r : Row} {sub : Submission} {result : SandboxResult} (hread : readRow r = .ok sub)
    (hshows : r.Shows result) : sub.Shows result := by
  have hstatus : parseStatus r.status r.statusDetail = .ok result.status := by
    have hcolumns := parseStatus_encodeStatus result.status
    rw [← hshows.status] at hcolumns
    exact hcolumns
  rw [readRow, hstatus] at hread
  cases hread
  exact ⟨rfl, ⟨hshows.ending.1, congrArg (Option.map Signal.fromRaw) hshows.ending.2⟩, hshows.usage, hshows.outputs⟩

/-- What is read of a row is a verdict about the program it was inserted with. -/
theorem ownVerdict_of_readRow {new : NewSubmission} {r : Row} {sub : Submission} (hfrom : r.From executes new)
    (hread : readRow r = .ok sub) : OwnVerdict executes new.job.program sub := by
  intro hverdict
  have hcolumns : statusOfColumns r.status r.statusDetail = some sub.status := by
    unfold readRow parseStatus at hread
    split at hread
    · rename_i status hstatus
      cases hread
      exact hstatus
    · cases hread
  have hterminal : r.status.isTerminal = true := by
    rw [← isTerminal_of_statusOfColumns hcolumns]
    exact Status.isTerminal_of_isVerdict hverdict
  have hother : r.status ≠ .sandboxFailure := by
    intro hfailed
    have hstatus : sub.status = .sandboxFailure := by
      rw [hfailed] at hcolumns
      cases hdetail : r.statusDetail with
      | none =>
        rw [hdetail] at hcolumns
        exact (Option.some.inj hcolumns).symm
      | some detail =>
        rw [hdetail] at hcolumns
        cases hcolumns
    rw [hstatus] at hverdict
    cases hverdict
  obtain ⟨result, hexecutes, hshows⟩ := hfrom.judged hterminal hother
  exact ⟨new.job, result, hexecutes, rfl, shows_of_readRow hread hshows⟩

/-- What is read by the token of a submission is a verdict about its program. -/
theorem ownVerdict_of_fetch {s : Logged} (h : OriginInv executes s) {new : NewSubmission} (hnew : new ∈ s.inserted)
    {sub : Submission} (hfetch : fetchSubmission s.fleet.rows new.token = .ok (some sub)) :
    OwnVerdict executes new.job.program sub := by
  rw [fetchSubmission_eq] at hfetch
  split at hfetch
  · cases hfetch
  · rename_i r hfound
    obtain ⟨sub', hread, hsub⟩ := map_eq_ok_iff.mp hfetch
    obtain rfl := Option.some_injective _ hsub
    obtain ⟨new', hnew', hfrom⟩ := h.rows r (List.mem_of_find?_eq_some hfound)
    have htoken : r.token = new.token := by simpa using List.find?_some hfound
    obtain rfl := eq_of_key_eq h.tokens hnew hnew' (htoken.symm.trans hfrom.token)
    exact ownVerdict_of_readRow hfrom hread

variable (env blake3 toBits executes)

/-- What is kept for a key is a verdict about the program of a request with this key. -/
def KeptVerdict (posts : List SubmissionRequest) (key : Digest) (sub : Submission) : Prop :=
  ∃ posted ∈ posts, ∃ req limits, posted.prepare env.api = .ok (req, limits) ∧
    key = req.resultKey blake3 toBits limits ∧ OwnVerdict executes req.program sub

/-- How far a caller got, and what it has been told. -/
inductive Caller.Told (posts : List SubmissionRequest) (log : List NewSubmission) (caller : Caller) : Prop
  | before (hphase : caller.creation.phase.beforeInsert = true) (hinserted : caller.creation.inserted = none)
    (hidle : caller.populating = none)
    (hchecked : ∀ checked, caller.creation.phase.checked = some checked →
      caller.creation.posted.prepare env.api = .ok checked)
    (hcached : ∀ sub, caller.creation.phase = .answered (.cached sub) → ∃ req limits,
      caller.creation.posted.prepare env.api = .ok (req, limits) ∧
        KeptVerdict env blake3 toBits executes posts (req.resultKey blake3 toBits limits) sub)
    (hexisting : ∀ token, caller.creation.phase = .answered (.existing token) → ∃ req limits,
      caller.creation.posted.prepare env.api = .ok (req, limits) ∧ ∃ new ∈ log, new.token = token ∧
        new.idempotencyHash = some (env.hash (idempotencyInput req)))
  | behind (hphase : caller.creation.phase.behindInsert = true) (req : SubmissionRequest) (limits : ResourceLimits)
    (new : NewSubmission) (hprepared : caller.creation.posted.prepare env.api = .ok (req, limits)) (hnew : new ∈ log)
    (hprogram : new.job.program = req.program) (htoken : ∀ t, caller.creation.phase.token = some t → t = new.token)
    (hpopulating : ∀ sub, caller.populating = some sub → OwnVerdict executes req.program sub)
    (hfinished : ∀ sub, caller.creation.phase = .answered (.finished sub) → OwnVerdict executes req.program sub)

/-- What the requests have posted. -/
def Caching.posts (s : Caching Digest) : List SubmissionRequest := s.callers.map fun caller => caller.creation.posted

/-- Every row and every hash in the table comes from a submission that was inserted, and what the requests were told
and the cache holds are verdicts about their programs. -/
structure AuditInv (s : Audited Digest) : Prop where
  origin : OriginInv executes s.logged
  hashes : ∀ r ∈ s.caching.store.rows, ∃ new ∈ s.inserted, new.token = r.token ∧
    new.idempotencyHash = r.idempotencyHash
  keyed : ∀ new ∈ s.inserted, ∀ digest, new.idempotencyHash = some digest → ∃ posted ∈ s.caching.posts, ∃ req limits,
    posted.prepare env.api = .ok (req, limits) ∧ digest = env.hash (idempotencyInput req) ∧
      new.job.program = req.program
  callers : ∀ caller ∈ s.caching.callers,
    caller.Told env blake3 toBits executes s.caching.posts s.inserted
  entries : ∀ key sub, s.caching.cache key = some sub →
    KeptVerdict env blake3 toBits executes s.caching.posts key sub

variable {env blake3 toBits executes} {posts posts' : List SubmissionRequest} {log log' : List NewSubmission}

/-- What is kept stays kept when more requests arrive. -/
theorem KeptVerdict.mono {key : Digest} {sub : Submission} (h : KeptVerdict env blake3 toBits executes posts key sub)
    (hposts : posts ⊆ posts') : KeptVerdict env blake3 toBits executes posts' key sub := by
  obtain ⟨posted, hposted, hkept⟩ := h
  exact ⟨posted, hposts hposted, hkept⟩

/-- What a caller was told stays true. -/
theorem Caller.Told.mono {caller : Caller} (h : caller.Told env blake3 toBits executes posts log) (hposts : posts ⊆ posts')
    (hlog : log ⊆ log') : caller.Told env blake3 toBits executes posts' log' := by
  cases h with
  | before hphase hinserted hidle hchecked hcached hexisting =>
    refine .before hphase hinserted hidle hchecked (fun sub hsub => ?_) fun token htoken => ?_
    · obtain ⟨req, limits, hprepared, hkept⟩ := hcached sub hsub
      exact ⟨req, limits, hprepared, hkept.mono hposts⟩
    · obtain ⟨req, limits, hprepared, new, hnew, hhash⟩ := hexisting token htoken
      exact ⟨req, limits, hprepared, new, hlog hnew, hhash⟩
  | behind hphase req limits new hprepared hnew hprogram htoken hpopulating hfinished =>
    exact .behind hphase req limits new hprepared (hlog hnew) hprogram htoken hpopulating hfinished

/-- The submission of a checked request has its program. -/
theorem program_newSubmission (req : SubmissionRequest) (limits : ResourceLimits) (token : Token) (key : Option String)
    (bodyHash : Bytes) : (req.newSubmission limits token key bodyHash).job.program = req.program := rfl

/-- A step of its handler keeps what a caller was told: it hits what is kept for its key, it finds a row that was
inserted with its hash, it inserts a row of its own, or it reads that row. -/
theorem Caller.Told.advance {store store' : Fleet} {caller : Caller} {c' : Creation} {a : CreateStep}
    {populating : Option Submission} (h : caller.Told env blake3 toBits executes posts log)
    (horigin : OriginInv executes ⟨store, log⟩)
    (hhashes : ∀ r ∈ store.rows, ∃ new ∈ log, new.token = r.token ∧ new.idempotencyHash = r.idempotencyHash)
    (hpopulating : populating = none ∨ populating = caller.populating)
    (hhit : ∀ sub req limits, a = .checkCache (some sub) → caller.creation.phase = .checkingCache req limits →
      KeptVerdict env blake3 toBits executes posts (req.resultKey blake3 toBits limits) sub)
    (hread : ∀ sub, a = .wait true (some sub) → caller.populating = some sub ∨
      ∃ token, caller.creation.phase = .waiting token ∧ fetchSubmission store.rows token = .ok (some sub))
    (hstep : caller.creation.step env store a = some (store', c')) :
    Caller.Told env blake3 toBits executes posts (caller.creation.inserts env a ++ log) ⟨c', populating⟩ := by
  have hlog : log ⊆ caller.creation.inserts env a ++ log := List.subset_append_right _ _
  cases h with
  | before hphase hinserted hidle hchecked hcached hexisting =>
    have hidle' : populating = none := by
      rcases hpopulating with hnone | hsame
      · exact hnone
      · exact hsame.trans hidle
    cases Creation.earlyMove_of_step hphase hchecked hstep with
    | still phase lookedUpAt hstore hc hphase' hchecked' hcached' =>
      subst hstore hc
      refine .before hphase' hinserted hidle' hchecked' (fun sub hsub => ?_) fun token htoken => ?_
      · obtain ⟨ha, req, limits, hat, hprepared⟩ := hcached' sub hsub
        exact ⟨req, limits, hprepared, hhit sub req limits ha hat⟩
      · obtain ⟨req, limits, hat, r, hr, hrtoken, hhash⟩ := Creation.row_of_existing hstep htoken
        obtain ⟨new, hnew, hnewToken, hnewHash⟩ := hhashes r hr
        exact ⟨req, limits, hchecked _ (by rw [hat]; rfl), new, hlog hnew, hnewToken.trans hrtoken,
          hnewHash.trans hhash⟩
    | inserted phase req limits token hprepared hstore hc hphase' htoken =>
      subst hc
      obtain ⟨req', limits', hat, hinserts⟩ := Creation.inserts_of_inserted hstep hinserted rfl
      have hprepared' := hchecked (req', limits') (by rw [hat]; rfl)
      refine .behind hphase' req' limits' _ hprepared' (by rw [hinserts]; exact List.mem_cons_self)
        (program_newSubmission req' limits' token _ _) htoken (fun sub hsub => ?_) fun sub hsub => ?_
      · cases hidle'.symm.trans hsub
      · obtain ⟨_, token', hwaiting⟩ := Creation.waited_of_finished hstep hsub
        cases hat.symm.trans hwaiting
  | behind hphase req limits new hprepared hnew hprogram htoken hkeeps hfinished =>
    obtain ⟨rfl, phase, rfl, hphase', hcarries⟩ := Creation.lateMove_of_step hphase hstep
    refine .behind hphase' req limits new hprepared (hlog hnew) hprogram (fun t ht => htoken t (hcarries t ht))
      (fun sub hsub => ?_) fun sub hsub => ?_
    · rcases hpopulating with hnone | hsame
      · cases hnone.symm.trans hsub
      · exact hkeeps sub (hsame.symm.trans hsub)
    · obtain ⟨ha, token, hwaiting⟩ := Creation.waited_of_finished hstep hsub
      rcases hread sub ha with hkept | ⟨token', hwaiting', hfetch⟩
      · exact hkeeps sub hkept
      · obtain rfl := htoken token' (by rw [hwaiting']; rfl)
        rw [← hprogram]
        exact ownVerdict_of_fetch horigin hnew hfetch

variable [DecidableEq Digest]

/-- What a step does: the rest of the system takes a step, a request arrives, a handler takes a step of its own with
what it met, or keeps what it read of its row, or an entry is lost. -/
inductive Caching.Effect (env : CreateEnv) (blake3 : Bytes → Digest) (toBits : ℚ → UInt64) (s : Caching Digest) :
    CachingAction Digest → Caching Digest → Prop
  | store (a : StoreAction) (store : Fleet) (hstore : storeStep s.store a = some store) :
    Effect env blake3 toBits s (.store a) { s with store := store }
  | arrived (posted : SubmissionRequest) (header : Option Bytes) (wait : Bool) :
    Effect env blake3 toBits s (.arrive posted header wait)
      { s with callers := s.callers ++ [⟨.arrived posted header wait, none⟩] }
  | moved (action : CachingAction Digest) (i : ℕ) (old : Caller) (populating : Option Submission)
    (cache : Digest → Option Submission) (a : CreateStep) (store' : Fleet) (c' : Creation)
    (hold : s.callers[i]? = some old) (hinserts : s.inserts env action = old.creation.inserts env a)
    (hpopulating : populating = none ∨ populating = old.populating)
    (hcache : ∀ key sub, cache key = some sub → s.cache key = some sub ∨
      old.populating = some sub ∧ old.creation.cacheKey env blake3 toBits = some key)
    (hhit : ∀ sub req limits, a = .checkCache (some sub) → old.creation.phase = .checkingCache req limits →
      s.cache (req.resultKey blake3 toBits limits) = some sub)
    (hread : ∀ sub, a = .wait true (some sub) → old.populating = some sub ∨
      ∃ token, old.creation.phase = .waiting token ∧ fetchSubmission s.store.rows token = .ok (some sub))
    (hnext : old.creation.step env s.store a = some (store', c')) :
    Effect env blake3 toBits s action ⟨store', s.callers.set i ⟨c', populating⟩, cache⟩
  | held (i : ℕ) (ok : Bool) (old : Caller) (token : Token) (sub : Submission) (hold : s.callers[i]? = some old)
    (hwaiting : old.creation.phase = .waiting token)
    (hfetch : fetchSubmission s.store.rows token = .ok (some sub)) :
    Effect env blake3 toBits s (.endWait i ok)
      { s with callers := s.callers.set i { old with populating := some sub } }
  | evicted (key : Digest) :
    Effect env blake3 toBits s (.evict key) { s with cache := Function.update s.cache key none }

/-- Every step has one of these effects. -/
theorem Caching.effect_of_step {s t : Caching Digest} {action : CachingAction Digest}
    (hstep : s.step env blake3 toBits action = some t) : s.Effect env blake3 toBits action t := by
  cases action with
  | store a =>
    obtain ⟨store, hstore, rfl⟩ := Option.map_eq_some_iff.mp hstep
    exact .store a store hstore
  | arrive posted header wait =>
    cases hstep
    exact .arrived posted header wait
  | advance i a =>
    obtain ⟨old, hold, hmoved⟩ := Option.bind_eq_some_iff.mp hstep
    have hinserts : s.inserts env (.advance i a) = old.creation.inserts env a := by
      rw [Caching.inserts, hold]
      rfl
    have hmove : s.move env i old a = some t ∧ (∀ sub, a ≠ .checkCache (some sub)) ∧
        ∀ sub, a ≠ .wait true (some sub) := by
      cases a with
      | checkCache | wait => cases hmoved
      | prepare | checkCallback | findKey | checkLoad | insert | notify =>
        exact ⟨hmoved, (fun _ h => by cases h), fun _ h => by cases h⟩
    obtain ⟨⟨store', c'⟩, hnext, rfl⟩ := Option.map_eq_some_iff.mp hmove.1
    exact .moved _ i old old.populating s.cache a store' c' hold hinserts (.inr rfl) (fun _ _ h => .inl h)
      (fun sub _ _ ha => absurd ha (hmove.2.1 sub)) (fun sub ha => absurd ha (hmove.2.2 sub)) hnext
  | checkCache i =>
    obtain ⟨old, hold, hmoved⟩ := Option.bind_eq_some_iff.mp hstep
    split at hmoved
    · rename_i req limits hphase
      obtain ⟨⟨store', c'⟩, hnext, rfl⟩ := Option.map_eq_some_iff.mp hmoved
      refine .moved _ i old old.populating s.cache _ store' c' hold rfl (.inr rfl) (fun _ _ h => .inl h)
        (fun sub req' limits' ha hphase' => ?_) (fun sub ha => by cases ha) hnext
      cases hphase.symm.trans hphase'
      exact CreateStep.checkCache.inj ha
    · cases hmoved
  | endWait i ok =>
    obtain ⟨old, hold, hmoved⟩ := Option.bind_eq_some_iff.mp hstep
    have answered {ok' : Bool} {sub : Option Submission} (hmoved : s.move env i old (.wait ok' sub) = some t)
        (hread : ∀ sub', sub = some sub' → ∃ token, old.creation.phase = .waiting token ∧
          fetchSubmission s.store.rows token = .ok (some sub')) : s.Effect env blake3 toBits (.endWait i ok) t := by
      obtain ⟨⟨store', c'⟩, hnext, rfl⟩ := Option.map_eq_some_iff.mp hmoved
      exact .moved _ i old old.populating s.cache _ store' c' hold rfl (.inr rfl) (fun _ _ h => .inl h)
        (fun _ _ _ ha => by cases ha) (fun sub' ha => .inr (hread sub' (CreateStep.wait.inj ha).2)) hnext
    split at hmoved
    · rename_i token hphase hidle
      split at hmoved
      · rename_i sub hfetch
        split at hmoved
        · cases hmoved
          exact .held i true old token sub hold hphase hfetch
        · refine answered hmoved fun sub' hsub => ?_
          cases hsub
          exact ⟨token, hphase, hfetch⟩
      · exact answered hmoved fun _ hsub => by cases hsub
      · exact answered hmoved fun _ hsub => by cases hsub
      · exact answered hmoved fun _ hsub => by cases hsub
    · cases hmoved
  | populate i =>
    obtain ⟨old, hold, hmoved⟩ := Option.bind_eq_some_iff.mp hstep
    split at hmoved
    · rename_i sub key hpopulating hkey
      obtain ⟨⟨store', c'⟩, hnext, rfl⟩ := Option.map_eq_some_iff.mp hmoved
      refine .moved _ i old none (Function.update s.cache key (some sub)) _ store' c' hold rfl (.inl rfl)
        (fun key' sub' hsub => ?_) (fun _ _ _ ha => by cases ha) (fun sub' ha => .inl ?_) hnext
      · by_cases hsame : key' = key
        · subst hsame
          rw [Function.update_self] at hsub
          cases hsub
          exact .inr ⟨hpopulating, hkey⟩
        · rw [Function.update_of_ne hsame] at hsub
          exact .inl hsub
      · rw [hpopulating, (CreateStep.wait.inj ha).2]
    · cases hmoved
  | evict key =>
    cases hstep
    exact .evicted key

omit [DecidableEq Digest] in
/-- What the rest of the system does, and what a request inserts, leaves rows of what was inserted. -/
theorem AuditInv.rows_of_store {s : Audited Digest} {store : Fleet} {a : StoreAction}
    (h : AuditInv env blake3 toBits executes s) (hgenuine : Genuine executes s.logged a)
    (hstep : storeStep s.caching.store a = some store) : OriginInv executes ⟨store, recordInsert s.inserted a⟩ ∧
      ∀ r ∈ store.rows, ∃ new ∈ recordInsert s.inserted a, new.token = r.token ∧
        new.idempotencyHash = r.idempotencyHash := by
  have hlogged : s.logged.step a = some ⟨store, recordInsert s.inserted a⟩ := by
    rw [Logged.step, Audited.logged, hstep, Option.map_some]
  refine ⟨h.origin.of_step hgenuine hlogged, fun r hr => ?_⟩
  have hsame (r : Row) (hr : r ∈ s.caching.store.rows) : ∃ new ∈ recordInsert s.inserted a, new.token = r.token ∧
      new.idempotencyHash = r.idempotencyHash := by
    obtain ⟨new, hnew, hrow⟩ := h.hashes r hr
    refine ⟨new, ?_, hrow⟩
    unfold recordInsert
    split
    · exact List.mem_cons_of_mem _ hnew
    · exact hnew
  cases identityEffect_of_step hstep with
  | inserted new hfresh hnow hrows =>
    rw [hrows] at hr
    rcases List.mem_append.mp hr with hold | hlast
    · exact hsame r hold
    · obtain rfl := List.mem_singleton.mp hlast
      exact ⟨new, List.mem_cons_self, rfl, rfl⟩
  | expired config hnow hrows =>
    rw [hrows] at hr
    exact hsame r (List.mem_of_mem_filter hr)
  | kept a hnow hrows =>
    have hidentity : r.identity ∈ s.caching.store.rows.map Row.identity := hrows ▸ List.mem_map_of_mem hr
    obtain ⟨old, hold, heq⟩ := List.mem_map.mp hidentity
    obtain ⟨new, hnew, htoken, hhash⟩ := hsame old hold
    exact ⟨new, hnew, htoken.trans (congrArg RowIdentity.token heq),
      hhash.trans (congrArg RowIdentity.idempotencyHash heq)⟩

omit [DecidableEq Digest] in
/-- A step of the rest of the system remembers what it inserts. -/
theorem recordInsert_eq (s : Audited Digest) (a : StoreAction) :
    recordInsert s.inserted a = s.caching.inserts env (.store a) ++ s.inserted := by
  unfold recordInsert
  split
  · rfl
  · rename_i hother
    cases a with
    | fleet a =>
      cases a with
      | insert new => exact absurd rfl (hother new)
      | claim | publishProcessing | execute | writeResult | writeSandboxFailure | publishFinished | crash | sweep
      | tick => rfl
    | scrubPayloads config => rfl
    | expireOldRows config => rfl

omit [DecidableEq Digest] in
/-- What is genuine here is genuine for the table. -/
theorem Audited.Genuine.store {s : Audited Digest} {a : StoreAction} (h : s.Genuine env executes (.store a)) :
    Worker.Genuine executes s.logged a := by
  cases a with
  | fleet a =>
    cases a with
    | insert new => exact h.fresh new List.mem_cons_self
    | execute i outcome =>
      cases outcome with
      | none => trivial
      | some result => exact h.executed i result rfl
    | claim | publishProcessing | writeResult | writeSandboxFailure | publishFinished | crash | sweep | tick => trivial
  | scrubPayloads config => trivial
  | expireOldRows config => trivial

omit [DecidableEq Digest] in
/-- A handler leaves its caller the request. -/
theorem Creation.posted_of_step {store store' : Fleet} {c c' : Creation} {a : CreateStep}
    (hstep : c.step env store a = some (store', c')) : c'.posted = c.posted ∧ c'.header = c.header := by
  cases Creation.move_of_step hstep <;> exact ⟨rfl, rfl⟩

omit [DecidableEq Digest] in
/-- The rest of the system inserts what it is asked to. -/
theorem eq_of_mem_inserts {s : Caching Digest} {a : StoreAction} {new : NewSubmission}
    (hnew : new ∈ s.inserts env (.store a)) : a = .fleet (.insert new) := by
  cases a with
  | fleet a =>
    cases a with
    | insert new' => rw [List.mem_singleton.mp hnew]
    | claim | publishProcessing | execute | writeResult | writeSandboxFailure | publishFinished | crash | sweep | tick =>
      cases hnew
  | scrubPayloads config => cases hnew
  | expireOldRows config => cases hnew

omit [DecidableEq Digest] in
/-- What a handler inserts is the submission of its checked request, with its hash. -/
theorem Caller.Told.inserted {caller : Caller} (h : caller.Told env blake3 toBits executes posts log) {a : CreateStep}
    {new : NewSubmission} (hnew : new ∈ caller.creation.inserts env a) : ∃ req limits,
      caller.creation.posted.prepare env.api = .ok (req, limits) ∧ new.job.program = req.program ∧
        ∀ digest, new.idempotencyHash = some digest → digest = env.hash (idempotencyInput req) := by
  unfold Creation.inserts at hnew
  split at hnew
  · split at hnew
    · rename_i req limits hat
      have hprepared : caller.creation.posted.prepare env.api = .ok (req, limits) := by
        cases h with
        | before hphase hinserted hidle hchecked => exact hchecked _ (by rw [hat]; rfl)
        | behind hphase =>
          rw [hat] at hphase
          cases hphase
      split at hnew
      · obtain rfl := List.mem_singleton.mp hnew
        refine ⟨req, limits, hprepared, program_newSubmission req limits _ _ _, fun digest hdigest => ?_⟩
        obtain ⟨_, _, heq⟩ := Option.map_eq_some_iff.mp hdigest
        exact heq.symm
      · cases hnew
    · cases hnew
  · cases hnew

omit [DecidableEq Digest] in
/-- What a handler is about to put into the cache is a verdict about the program of its request. -/
theorem Caller.Told.kept {caller : Caller} (h : caller.Told env blake3 toBits executes posts log) {sub : Submission}
    {key : Digest} (hpopulating : caller.populating = some sub)
    (hkey : caller.creation.cacheKey env blake3 toBits = some key) (hposted : caller.creation.posted ∈ posts) :
    KeptVerdict env blake3 toBits executes posts key sub := by
  cases h with
  | before hphase hinserted hidle hchecked hcached hexisting => cases hidle.symm.trans hpopulating
  | behind hphase req limits new hprepared hnew hprogram htoken hkeeps hfinished =>
    rw [Creation.cacheKey, hprepared] at hkey
    exact ⟨caller.creation.posted, hposted, req, limits, hprepared, (Option.some_injective _ hkey).symm,
      hkeeps sub hpopulating⟩

omit [DecidableEq Digest] in
/-- A handler that keeps what it read of its row keeps a verdict about the program of its request. -/
theorem Caller.Told.held {store : Fleet} {caller : Caller} {token : Token} {sub : Submission}
    (h : caller.Told env blake3 toBits executes posts log) (horigin : OriginInv executes ⟨store, log⟩)
    (hwaiting : caller.creation.phase = .waiting token)
    (hfetch : fetchSubmission store.rows token = .ok (some sub)) :
    Caller.Told env blake3 toBits executes posts log { caller with populating := some sub } := by
  cases h with
  | before hphase =>
    rw [hwaiting] at hphase
    cases hphase
  | behind hphase req limits new hprepared hnew hprogram htoken hpopulating hfinished =>
    refine .behind hphase req limits new hprepared hnew hprogram htoken (fun sub' hsub => ?_) hfinished
    obtain rfl := htoken token (by rw [hwaiting]; rfl)
    cases hsub
    rw [← hprogram]
    exact ownVerdict_of_fetch horigin hnew hfetch

omit [DecidableEq Digest] in
/-- A caller that moves on leaves its request among those that were posted. -/
theorem posts_subset_set {s : Caching Digest} {store : Fleet} {cache : Digest → Option Submission} {i : ℕ}
    {old new : Caller} (hold : s.callers[i]? = some old) (hposted : new.creation.posted = old.creation.posted) :
    s.posts ⊆ (⟨store, s.callers.set i new, cache⟩ : Caching Digest).posts := by
  intro posted hmem
  have hmoved : ∃ caller ∈ s.callers.set i new, caller.creation.posted = posted :=
    exists_mem_set hold (fun heq => hposted.trans heq) (List.mem_map.mp hmem)
  exact List.mem_map.mpr hmoved

/-- Every step keeps the invariant. -/
theorem AuditInv.of_step {s t : Audited Digest} {a : CachingAction Digest} (h : AuditInv env blake3 toBits executes s)
    (hgenuine : s.Genuine env executes a) (hstep : s.step env blake3 toBits a = some t) :
    AuditInv env blake3 toBits executes t := by
  obtain ⟨caching, hcaching, rfl⟩ := Option.map_eq_some_iff.mp hstep
  have hlog : s.inserted ⊆ s.caching.inserts env a ++ s.inserted := List.subset_append_right _ _
  cases Caching.effect_of_step hcaching with
  | store a store hstore =>
    obtain ⟨horigin, hhashes⟩ := h.rows_of_store hgenuine.store hstore
    rw [@recordInsert_eq Digest env] at horigin hhashes
    refine ⟨horigin, hhashes, fun new hnew digest hdigest => ?_, fun caller hcaller => ?_, h.entries⟩
    · rcases List.mem_append.mp hnew with hinserted | hold
      · cases (hgenuine.keyless new (congrArg _ (eq_of_mem_inserts hinserted))).symm.trans hdigest
      · exact h.keyed new hold digest hdigest
    · exact (h.callers caller hcaller).mono (List.Subset.refl _) hlog
  | arrived posted header wait =>
    have hposts : s.caching.posts ⊆ ({ s.caching with
        callers := s.caching.callers ++ [⟨.arrived posted header wait, none⟩] } : Caching Digest).posts := by
      rw [Caching.posts, Caching.posts, List.map_append]
      exact List.subset_append_left _ _
    refine ⟨h.origin, h.hashes, fun new hnew digest hdigest => ?_, forall_mem_concat (fun caller hcaller => ?_) ?_,
      fun key sub hsub => (h.entries key sub hsub).mono hposts⟩
    · obtain ⟨posted, hposted, hkeyed⟩ := h.keyed new hnew digest hdigest
      exact ⟨posted, hposts hposted, hkeyed⟩
    · exact (h.callers caller hcaller).mono hposts hlog
    · exact .before rfl rfl rfl (fun _ hchecked => by cases hchecked) (fun _ hsub => by cases hsub)
        fun _ htoken => by cases htoken
  | moved action i old populating cache a store' c' hold hinserts hpopulating hcache hhit hread hnext =>
    have htold := h.callers old (List.mem_of_getElem? hold)
    have hposted : old.creation.posted ∈ s.caching.posts := List.mem_map_of_mem (List.mem_of_getElem? hold)
    have hposts : s.caching.posts ⊆
        (⟨store', s.caching.callers.set i ⟨c', populating⟩, cache⟩ : Caching Digest).posts :=
      posts_subset_set hold (Creation.posted_of_step hnext).1
    rw [hinserts] at hlog ⊢
    have horigin : OriginInv executes ⟨store', old.creation.inserts env a ++ s.inserted⟩ ∧
        ∀ r ∈ store'.rows, ∃ new ∈ old.creation.inserts env a ++ s.inserted, new.token = r.token ∧
          new.idempotencyHash = r.idempotencyHash := by
      rcases Creation.inserts_of_step hnext with ⟨rfl, hnone⟩ | ⟨new, hone, hinsert⟩
      · rw [hnone]
        exact ⟨h.origin, h.hashes⟩
      · rw [hone]
        refine h.rows_of_store ?_ hinsert
        exact hgenuine.fresh new (by rw [hinserts, hone]; exact List.mem_cons_self)
    refine ⟨horigin.1, horigin.2, fun new hnew digest hdigest => ?_,
      forall_mem_set (fun caller hcaller => (h.callers caller hcaller).mono hposts hlog) ?_ i, fun key sub hsub => ?_⟩
    · rcases List.mem_append.mp hnew with hinserted | hbefore
      · obtain ⟨req, limits, hprepared, hprogram, hhash⟩ := htold.inserted hinserted
        exact ⟨old.creation.posted, hposts hposted, req, limits, hprepared, hhash digest hdigest, hprogram⟩
      · obtain ⟨posted, hmem, hkeyed⟩ := h.keyed new hbefore digest hdigest
        exact ⟨posted, hposts hmem, hkeyed⟩
    · refine (htold.advance h.origin h.hashes hpopulating (fun sub req limits ha hat => ?_) hread hnext).mono hposts
        (List.Subset.refl _)
      exact h.entries _ sub (hhit sub req limits ha hat)
    · rcases hcache key sub hsub with hkept | ⟨hpopulates, hkey⟩
      · exact (h.entries key sub hkept).mono hposts
      · exact (htold.kept hpopulates hkey hposted).mono hposts
  | held i ok old token sub hold hwaiting hfetch =>
    have hposts : s.caching.posts ⊆ ({ s.caching with
        callers := s.caching.callers.set i { old with populating := some sub } } : Caching Digest).posts :=
      posts_subset_set hold rfl
    refine ⟨h.origin, h.hashes, fun new hnew digest hdigest => ?_,
      forall_mem_set (fun caller hcaller => (h.callers caller hcaller).mono hposts hlog) ?_ i,
      fun key sub hsub => (h.entries key sub hsub).mono hposts⟩
    · obtain ⟨posted, hposted, hkeyed⟩ := h.keyed new hnew digest hdigest
      exact ⟨posted, hposts hposted, hkeyed⟩
    · exact ((h.callers old (List.mem_of_getElem? hold)).held h.origin hwaiting hfetch).mono hposts hlog
  | evicted key =>
    refine ⟨h.origin, h.hashes, h.keyed, h.callers, fun key' sub hsub => ?_⟩
    by_cases hsame : key' = key
    · subst hsame
      change Function.update s.caching.cache key' none key' = some sub at hsub
      rw [Function.update_self] at hsub
      cases hsub
    · change Function.update s.caching.cache key none key' = some sub at hsub
      rw [Function.update_of_ne hsame] at hsub
      exact h.entries key' sub hsub

omit [DecidableEq Digest] in
/-- Nothing has happened yet. -/
theorem AuditInv.init : AuditInv env blake3 toBits executes Audited.init where
  origin := OriginInv.init
  hashes r hr := by cases hr
  keyed new hnew := by cases hnew
  callers caller hcaller := by cases hcaller
  entries key sub hsub := by cases hsub

omit [DecidableEq Digest] in
/-- Requests with one result key have one program. -/
theorem program_eq_of_resultKeyInput {posted posted' req req' : SubmissionRequest} {limits limits' : ResourceLimits}
    (hids : ∀ spec ∈ env.api.languages, spec.id < 2 ^ 32) (h : posted.prepare env.api = .ok (req, limits))
    (h' : posted'.prepare env.api = .ok (req', limits'))
    (hinput : resultKeyInput req.languageId req.sourceCode (req.stdin.getD []) (limitPatterns toBits limits) =
      resultKeyInput req'.languageId req'.sourceCode (req'.stdin.getD []) (limitPatterns toBits limits')) :
    req.program = req'.program := by
  obtain ⟨fields, hid, hsource, hstdin, hpatterns⟩ := exists_keyFields hids h toBits
  obtain ⟨fields', hid', hsource', hstdin', hpatterns'⟩ := exists_keyFields hids h' toBits
  have hsame : fields = fields' := by
    refine ResultKeyFields.input_injective ?_
    unfold ResultKeyFields.input
    rw [hid, hsource, hstdin, hpatterns, hid', hsource', hstdin', hpatterns', hinput]
  rw [SubmissionRequest.program, SubmissionRequest.program, ← hid, ← hsource, ← hstdin, hsame, hid', hsource', hstdin']

omit [DecidableEq Digest] in
/-- Requests with one hash for their keys have one program. -/
theorem program_eq_of_idempotencyInput {posted posted' req req' : SubmissionRequest} {limits limits' : ResourceLimits}
    (hids : ∀ spec ∈ env.api.languages, spec.id < 2 ^ 32) (h : posted.prepare env.api = .ok (req, limits))
    (h' : posted'.prepare env.api = .ok (req', limits')) (hinput : idempotencyInput req = idempotencyInput req') :
    req.program = req'.program := by
  have hbody := (idempotencyInput_eq_iff hids h h').mp hinput
  have hid : req.languageId = req'.languageId := congrArg Prod.fst hbody
  have hsource : req.sourceCode = req'.sourceCode := congrArg (fun program => program.2.1) hbody
  have hstdin : req.stdin = req'.stdin := congrArg (fun program => program.2.2) hbody
  rw [SubmissionRequest.program, SubmissionRequest.program, hid, hsource, hstdin]

/-- What has been hashed for an idempotency key. -/
def Caching.keyHashed (env : CreateEnv) (s : Caching Digest) : Set Bytes :=
  {input | ∃ posted ∈ s.posts, ∃ req limits, posted.prepare env.api = .ok (req, limits) ∧ input = idempotencyInput req}

/-- The answer carries a submission. -/
def CreatePhase.carries (phase : CreatePhase) (sub : Submission) : Prop :=
  phase = .answered (.cached sub) ∨ phase = .answered (.finished sub)

/-- The answer carries the token of a row. -/
def CreatePhase.names (phase : CreatePhase) (token : Token) : Prop :=
  phase = .answered (.existing token) ∨ phase = .answered (.created token)

omit [DecidableEq Digest] in
/-- What a request is answered with is a verdict about its program, or the token of a submission of its program. -/
theorem AuditInv.answered {s : Audited Digest} (h : AuditInv env blake3 toBits executes s)
    (hids : ∀ spec ∈ env.api.languages, spec.id < 2 ^ 32)
    (hresults : Set.InjOn blake3 (s.caching.hashed env toBits)) (hkeys : Set.InjOn env.hash (s.caching.keyHashed env))
    {caller : Caller} (hcaller : caller ∈ s.caching.callers) :
    (∀ sub, caller.creation.phase.carries sub → ∃ req limits,
      caller.creation.posted.prepare env.api = .ok (req, limits) ∧ OwnVerdict executes req.program sub) ∧
      ∀ token, caller.creation.phase.names token → ∃ req limits,
        caller.creation.posted.prepare env.api = .ok (req, limits) ∧
          ∃ new ∈ s.inserted, new.token = token ∧ new.job.program = req.program := by
  have hposted : caller.creation.posted ∈ s.caching.posts := List.mem_map_of_mem hcaller
  cases h.callers caller hcaller with
  | before hphase hinserted hidle hchecked hcached hexisting =>
    refine ⟨fun sub hcarries => ?_, fun token hnames => ?_⟩
    · rcases hcarries with hhit | hfinished
      · obtain ⟨req, limits, hprepared, posted, hmem, req', limits', hprepared', hkey, hverdict⟩ := hcached sub hhit
        obtain ⟨other, hother, rfl⟩ := List.mem_map.mp hmem
        have hinput := hresults ⟨caller, hcaller, req, limits, hprepared, rfl⟩
          ⟨other, hother, req', limits', hprepared', rfl⟩ hkey
        rw [← program_eq_of_resultKeyInput hids hprepared hprepared' hinput] at hverdict
        exact ⟨req, limits, hprepared, hverdict⟩
      · rw [hfinished] at hphase
        cases hphase
    · rcases hnames with hfound | hcreated
      · obtain ⟨req, limits, hprepared, new, hnew, htoken, hhash⟩ := hexisting token hfound
        obtain ⟨posted, hmem, req', limits', hprepared', hdigest, hprogram⟩ := h.keyed new hnew _ hhash
        have hinput := hkeys ⟨caller.creation.posted, hposted, req, limits, hprepared, rfl⟩
          ⟨posted, hmem, req', limits', hprepared', rfl⟩ hdigest
        rw [← program_eq_of_idempotencyInput hids hprepared hprepared' hinput] at hprogram
        exact ⟨req, limits, hprepared, new, hnew, htoken, hprogram⟩
      · rw [hcreated] at hphase
        cases hphase
  | behind hphase req limits new hprepared hnew hprogram htoken hpopulating hfinished =>
    refine ⟨fun sub hcarries => ?_, fun token hnames => ?_⟩
    · rcases hcarries with hhit | hdone
      · rw [hhit] at hphase
        cases hphase
      · exact ⟨req, limits, hprepared, hfinished sub hdone⟩
    · rcases hnames with hfound | hcreated
      · rw [hfound] at hphase
        cases hphase
      · exact ⟨req, limits, hprepared, new, hnew, (htoken token (by rw [hcreated]; rfl)).symm, hprogram⟩

end Verdicts

end ZeroCode.Api
