import ZeroCode.Api.BatchCreate
import ZeroCode.Api.BatchSingle
import ZeroCode.Api.CallbackUrl
import ZeroCode.Cache.ResultKey

/-!
# What the result cache changes about a request

Two services that differ in nothing but the contents of their result caches serve one
request. A hit is answered before the callback URL is checked and before the idempotency
key is looked up, and it inserts no row. So a hit hides a rejection, and the callback of a
request it answers is never recorded.
-/

namespace ZeroCode.Api

open ZeroCode.Cache ZeroCode.Core ZeroCode.Foundation ZeroCode.Sandbox ZeroCode.Worker

/-- The result key of a checked request. A missing input counts as an empty one. -/
def SubmissionRequest.resultKey {Digest : Type*} (blake3 : Bytes → Digest) (toBits : ℚ → UInt64)
    (req : SubmissionRequest) (limits : ResourceLimits) : Digest :=
  CacheKey.result blake3 toBits req.languageId req.sourceCode (req.stdin.getD []) limits

/-- What a request meets on its way, apart from the cache: the row a lookup of its key would return, the depth
of the queue, the token it draws and how its statements end. -/
structure World where
  found : Option Token
  lookupOk : Bool
  queueDepth : ℤ
  milliseconds : ℕ
  random : ℕ
  insertReply : Reply
  notifyOk : Bool
  waitOk : Bool
  waited : Option Submission
  deriving DecidableEq, Repr

/-- What the handler does next, given what the cache holds for a request. -/
def World.next (w : World) (cached : SubmissionRequest → ResourceLimits → Option Submission) :
    CreatePhase → Option CreateStep
  | .received => some .prepare
  | .checkingCache req limits => some (.checkCache (cached req limits))
  | .checkingCallback _ _ => some .checkCallback
  | .findingKey _ _ => some (.findKey w.found w.lookupOk)
  | .checkingLoad _ _ => some (.checkLoad w.queueDepth)
  | .inserting _ _ => some (.insert w.milliseconds w.random w.insertReply)
  | .notifying _ => some (.notify w.notifyOk)
  | .waiting _ => some (.wait w.waitOk w.waited)
  | .answered _ => none

/-- The handler takes at most so many steps. -/
def World.serve (w : World) (env : CreateEnv) (cached : SubmissionRequest → ResourceLimits → Option Submission) :
    ℕ → Fleet × Creation → Fleet × Creation
  | 0, s => s
  | n + 1, s =>
    match (w.next cached s.2.phase).bind (createAlone env s) with
    | some t => w.serve env cached n t
    | none => s

/-- How many steps are left at most. -/
def CreatePhase.remaining : CreatePhase → ℕ
  | .received => 8
  | .checkingCache _ _ => 7
  | .checkingCallback _ _ => 6
  | .findingKey _ _ => 5
  | .checkingLoad _ _ => 4
  | .inserting _ _ => 3
  | .notifying _ => 2
  | .waiting _ => 1
  | .answered _ => 0

/-- Serve a request to its end. -/
def World.handle (w : World) (env : CreateEnv) (cached : SubmissionRequest → ResourceLimits → Option Submission)
    (before : Fleet) (posted : SubmissionRequest) (header : Option Bytes) (wait : Bool) : Fleet × Creation :=
  w.serve env cached 8 (before, .arrived posted header wait)

/-- The request was turned down, for a check it failed or for its idempotency key. -/
def CreatePhase.rejected : CreatePhase → Bool
  | .answered (.refused _) | .answered (.idempotencyConflict _) => true
  | _ => false

/-- The request was answered with a submission. -/
def CreatePhase.accepted : CreatePhase → Bool
  | .answered (.cached _) | .answered (.existing _) | .answered (.finished _) | .answered (.created _) => true
  | _ => false

/-- The token of the submission a request was answered with, if it has a row. -/
def Creation.answeredToken (c : Creation) : Option Token :=
  match c.phase with
  | .answered (.existing token) | .answered (.created token) => some token
  | .answered (.finished _) => c.inserted.map Prod.snd
  | _ => none

/-- If the request was accepted and names a callback URL, the row of its submission carries that URL. -/
def Creation.Honoured (store : Fleet) (c : Creation) : Prop :=
  c.phase.accepted = true → ∀ url, c.posted.callbackUrl = some url →
    ∃ r ∈ store.rows, c.answeredToken = some r.token ∧ r.callbackUrl = some url

/-- The two services reject the same, and honour the callback of what they accept. -/
def Transparent (s t : Fleet × Creation) : Prop :=
  (s.2.phase.rejected = true ↔ t.2.phase.rejected = true) ∧ s.2.Honoured s.1 ∧ t.2.Honoured t.1

/-- A step leaves fewer steps. -/
theorem Creation.remaining_of_step {env : CreateEnv} {store store' : Fleet} {c c' : Creation} {a : CreateStep}
    (hstep : c.step env store a = some (store', c')) : c'.phase.remaining < c.phase.remaining := by
  cases Creation.move_of_step hstep with
  | prepared _ _ hat | refused _ hat | cacheHit _ _ _ hat | cacheMiss _ _ hat | callbackAllowed _ _ hat
  | callbackRefused _ _ _ hat | keyless _ _ _ _ hat | keyUnknown _ _ _ _ hat | keyKnown _ _ _ _ _ hat
  | lookupFailed _ _ _ _ hat | shed _ _ _ hat | admitted _ _ _ hat | insertFailed _ _ _ _ _ hat | notifyFailed _ hat
  | startsWaiting _ hat | created _ hat | waitFailed _ _ hat | finished _ _ hat | gone _ hat =>
    simp [hat, CreatePhase.remaining]
  | inserted milliseconds random reply req limits new hat hnew hcommitted hfresh =>
    cases reply <;> simp [hat, CreatePhase.remaining]

/-- The handler has come past the lookup of the key, or failed there. -/
def CreatePhase.late : CreatePhase → Bool
  | .checkingLoad _ _ | .inserting _ _ | .notifying _ | .waiting _ => true
  | .answered (.backpressure _) | .answered .failed | .answered (.finished _) | .answered (.created _) => true
  | _ => false

/-- Past the lookup of the key there is no way back. -/
theorem Creation.late_of_step {env : CreateEnv} {store store' : Fleet} {c c' : Creation} {a : CreateStep}
    (h : c.phase.late = true) (hstep : c.step env store a = some (store', c')) : c'.phase.late = true := by
  have hnot {phase : CreatePhase} (hat : c.phase = phase) (hearlier : phase.late = false) : False := by
    rw [hat, hearlier] at h
    cases h
  cases Creation.move_of_step hstep with
  | prepared _ _ hat | refused _ hat | cacheHit _ _ _ hat | cacheMiss _ _ hat | callbackAllowed _ _ hat
  | callbackRefused _ _ _ hat | keyless _ _ _ _ hat | keyUnknown _ _ _ _ hat | keyKnown _ _ _ _ _ hat
  | lookupFailed _ _ _ _ hat => exact (hnot hat rfl).elim
  | inserted milliseconds random reply => cases reply <;> rfl
  | shed | admitted | insertFailed | notifyFailed | startsWaiting | created | waitFailed | finished | gone => rfl

/-- Past the lookup of the key nothing is rejected. -/
theorem CreatePhase.not_rejected_of_late {phase : CreatePhase} (h : phase.late = true) : phase.rejected = false := by
  cases phase with
  | answered reply =>
    cases reply with
    | refused | idempotencyConflict => cases h
    | cached | existing | backpressure | failed | finished | created => rfl
  | received | checkingCache | checkingCallback | findingKey | checkingLoad | inserting | notifying | waiting => rfl

/-- Past the lookup of the key only inserted submissions are answered with. -/
theorem CreatePhase.not_beforeInsert_of_late {phase : CreatePhase} (h : phase.late = true)
    (haccepted : phase.accepted = true) : phase.beforeInsert = false := by
  cases phase with
  | answered reply =>
    cases reply with
    | finished | created => rfl
    | cached | existing => cases h
    | refused | idempotencyConflict | backpressure | failed => cases haccepted
  | received | checkingCache | checkingCallback | findingKey | checkingLoad | inserting | notifying | waiting =>
    cases haccepted

/-- Serving a request is a run of its handler. -/
theorem World.reachable_serve (w : World) (env : CreateEnv)
    (cached : SubmissionRequest → ResourceLimits → Option Submission) (n : ℕ) (s : Fleet × Creation) :
    Reachable (createAlone env) s (w.serve env cached n s) := by
  induction n generalizing s with
  | zero => exact .refl
  | succ n ih =>
    unfold World.serve
    split
    · rename_i t hnext
      obtain ⟨a, _, hstep⟩ := Option.bind_eq_some_iff.mp hnext
      exact Reaches.trans (.tail .refl trivial hstep) (ih t)
    · exact .refl

/-- With enough steps a request is served until nothing is left to do. -/
theorem World.serve_ends (w : World) (env : CreateEnv)
    (cached : SubmissionRequest → ResourceLimits → Option Submission) (n : ℕ) (s : Fleet × Creation)
    (hn : s.2.phase.remaining ≤ n) :
    (w.next cached (w.serve env cached n s).2.phase).bind (createAlone env (w.serve env cached n s)) = none := by
  induction n generalizing s with
  | zero =>
    have hanswered : w.next cached s.2.phase = none := by
      cases hphase : s.2.phase with
      | answered reply => rfl
      | received | checkingCache | checkingCallback | findingKey | checkingLoad | inserting | notifying | waiting =>
        rw [hphase] at hn
        cases hn
    rw [World.serve, hanswered]
    rfl
  | succ n ih =>
    unfold World.serve
    split
    · rename_i t hnext
      obtain ⟨a, _, hstep⟩ := Option.bind_eq_some_iff.mp hnext
      have hless : t.2.phase.remaining < s.2.phase.remaining := Creation.remaining_of_step hstep
      exact ih t (by omega)
    · assumption

/-- The cache is asked once: behind its lookup its contents make no difference. -/
theorem World.serve_congr (w : World) (env : CreateEnv)
    (cached cached' : SubmissionRequest → ResourceLimits → Option Submission) (n : ℕ) (s : Fleet × Creation)
    (hbehind : s.2.phase.remaining ≤ 6) : w.serve env cached n s = w.serve env cached' n s := by
  induction n generalizing s with
  | zero => rfl
  | succ n ih =>
    have hnext : w.next cached s.2.phase = w.next cached' s.2.phase := by
      cases hphase : s.2.phase with
      | received | checkingCache =>
        rw [hphase] at hbehind
        simp [CreatePhase.remaining] at hbehind
      | checkingCallback | findingKey | checkingLoad | inserting | notifying | waiting | answered => rfl
    unfold World.serve
    rw [hnext]
    split
    · rename_i t hstep
      obtain ⟨a, _, hstep⟩ := Option.bind_eq_some_iff.mp hstep
      have hless : t.2.phase.remaining < s.2.phase.remaining := Creation.remaining_of_step hstep
      exact ih t (by omega)
    · rfl

/-- The check of the callback URL of a request, if it names one. -/
def CreateEnv.checkCallback (env : CreateEnv) (req : SubmissionRequest) : Except String Unit :=
  (req.callbackUrl.map env.validateCallbackUrl).getD (.ok ())

/-- The lookup of the key of a request finds this row. -/
def World.Knows (w : World) (env : CreateEnv) (before : Fleet) (header : Option Bytes) (req : SubmissionRequest)
    (hit : IdempotencyHit) : Prop :=
  w.lookupOk = true ∧ ∃ key, header.bind headerText = some key ∧
    findByIdempotencyKey before.rows before.now key (env.hash (idempotencyInput req)) w.found = some (some hit)

/-- How a request ends that the cache does not know. -/
inductive MissOutcome (w : World) (env : CreateEnv) (before : Fleet) (posted req : SubmissionRequest)
    (header : Option Bytes) (final : Fleet × Creation) : Prop
  | refused (msg : String) (hrefused : env.checkCallback req = .error msg)
    (hphase : final.2.phase = .answered (.refused (.validation msg)))
  | known (hit : IdempotencyHit) (hallowed : env.checkCallback req = .ok ()) (hknows : w.Knows env before header req hit)
    (hstore : final.1 = before) (hposted : final.2.posted = posted)
    (hphase : final.2.phase =
      .answered (if hit.bodyMatches then .existing hit.token else .idempotencyConflict hit.token))
  | unknown (hallowed : env.checkCallback req = .ok ()) (hunknown : ∀ hit, ¬ w.Knows env before header req hit)
    (hrejected : final.2.phase.rejected = false)
    (haccepted : final.2.phase.accepted = true → final.2.phase.beforeInsert = false)

section

variable {env : CreateEnv} {w : World} {cached : SubmissionRequest → ResourceLimits → Option Submission} {before : Fleet}
  {posted req : SubmissionRequest} {limits : ResourceLimits} {header : Option Bytes} {wait : Bool}

/-- The step the handler takes is the first of the run. -/
theorem World.serve_step {n : ℕ} {s t : Fleet × Creation} {a : CreateStep} (hnext : w.next cached s.2.phase = some a)
    (hstep : createAlone env s a = some t) : w.serve env cached (n + 1) s = w.serve env cached n t := by
  rw [World.serve, hnext, Option.bind_some, hstep]

/-- A run ends where the handler can take no step. -/
theorem World.serve_stuck {n : ℕ} {s : Fleet × Creation}
    (hstuck : (w.next cached s.2.phase).bind (createAlone env s) = none) : w.serve env cached n s = s := by
  cases n with
  | zero => rfl
  | succ n => rw [World.serve, hstuck]

/-- An answered request is left alone. -/
theorem World.serve_answered {n : ℕ} {s : Fleet × Creation} {reply : CreateReply}
    (hphase : s.2.phase = .answered reply) : w.serve env cached n s = s :=
  serve_stuck (by rw [hphase]; rfl)

/-- Past the lookup of the key a run stays there. -/
theorem World.late_serve (n : ℕ) (s : Fleet × Creation) (h : s.2.phase.late = true) :
    (w.serve env cached n s).2.phase.late = true := by
  induction n generalizing s with
  | zero => exact h
  | succ n ih =>
    unfold World.serve
    split
    · rename_i t hnext
      obtain ⟨a, _, hstep⟩ := Option.bind_eq_some_iff.mp hnext
      exact ih t (Creation.late_of_step h hstep)
    · exact h

/-- A request that fails its checks is turned down. -/
theorem World.handle_refused {e : CreateError} (hrefused : posted.prepare env.api = .error e) :
    w.handle env cached before posted header wait =
      (before, ⟨posted, header, wait, .answered (.refused e), none, none⟩) := by
  have hfirst : createAlone env (before, .arrived posted header wait) .prepare =
      some (before, ⟨posted, header, wait, .answered (.refused e), none, none⟩) := by
    simp only [createAlone, Creation.step, Creation.arrived, hrefused]
  exact (serve_step rfl hfirst).trans (serve_answered rfl)

/-- A checked request asks the cache next. -/
theorem World.handle_prepared (hprepared : posted.prepare env.api = .ok (req, limits)) :
    w.handle env cached before posted header wait =
      w.serve env cached 7 (before, ⟨posted, header, wait, .checkingCache req limits, none, none⟩) := by
  have hfirst : createAlone env (before, .arrived posted header wait) .prepare =
      some (before, ⟨posted, header, wait, .checkingCache req limits, none, none⟩) := by
    simp only [createAlone, Creation.step, Creation.arrived, hprepared]
  exact serve_step rfl hfirst

/-- A hit is the answer. -/
theorem World.handle_hit {sub : Submission} (hprepared : posted.prepare env.api = .ok (req, limits))
    (hhit : cached req limits = some sub) :
    w.handle env cached before posted header wait =
      (before, ⟨posted, header, wait, .answered (.cached sub), none, none⟩) := by
  have hsecond : createAlone env (before, ⟨posted, header, wait, .checkingCache req limits, none, none⟩)
      (.checkCache (cached req limits)) =
        some (before, ⟨posted, header, wait, .answered (.cached sub), none, none⟩) := by
    simp only [createAlone, Creation.step, hhit]
  exact (handle_prepared hprepared).trans ((serve_step rfl hsecond).trans (serve_answered rfl))

/-- Behind a miss the handler goes on with the callback URL. -/
theorem World.handle_miss (hprepared : posted.prepare env.api = .ok (req, limits)) (hmiss : cached req limits = none) :
    w.handle env cached before posted header wait =
      w.serve env cached 6 (before, ⟨posted, header, wait, .checkingCallback req limits, none, none⟩) := by
  have hsecond : createAlone env (before, ⟨posted, header, wait, .checkingCache req limits, none, none⟩)
      (.checkCache (cached req limits)) =
        some (before, ⟨posted, header, wait, .checkingCallback req limits, none, none⟩) := by
    simp only [createAlone, Creation.step, hmiss]
  exact (handle_prepared hprepared).trans (serve_step rfl hsecond)

/-- A key is not known if its lookup finds no row. -/
theorem World.not_knows {key : String} (hkey : header.bind headerText = some key)
    (hmissed : ∀ hit,
      findByIdempotencyKey before.rows before.now key (env.hash (idempotencyInput req)) w.found ≠ some (some hit))
    (hit : IdempotencyHit) : ¬ w.Knows env before header req hit := by
  rintro ⟨_, key', hsome, hhit⟩
  cases hkey.symm.trans hsome
  exact hmissed hit hhit

/-- How a request ends whose callback URL is allowed. -/
theorem World.outcome_of_findingKey (n : ℕ) (hallowed : env.checkCallback req = .ok ()) :
    MissOutcome w env before posted req header
      (w.serve env cached (n + 1) (before, ⟨posted, header, wait, .findingKey req limits, none, none⟩)) := by
  have hlate (hunknown : ∀ hit, ¬ w.Knows env before header req hit) (s : Fleet × Creation)
      (h : s.2.phase.late = true) : MissOutcome w env before posted req header (w.serve env cached n s) := by
    have hserved : (w.serve env cached n s).2.phase.late = true := late_serve n s h
    exact .unknown hallowed hunknown (CreatePhase.not_rejected_of_late hserved)
      (CreatePhase.not_beforeInsert_of_late hserved)
  cases hkey : header.bind headerText with
  | none =>
    have hunknown (hit : IdempotencyHit) : ¬ w.Knows env before header req hit := by
      rintro ⟨_, key, hsome, _⟩
      cases hkey.symm.trans hsome
    have hstep : createAlone env (before, ⟨posted, header, wait, .findingKey req limits, none, none⟩)
        (.findKey w.found w.lookupOk) =
          some (before, ⟨posted, header, wait, .checkingLoad req limits, none, none⟩) := by
      simp only [createAlone, Creation.step, Creation.key, hkey]
    rw [serve_step rfl hstep]
    exact hlate hunknown _ rfl
  | some key =>
    cases hok : w.lookupOk with
    | false =>
      have hunknown (hit : IdempotencyHit) : ¬ w.Knows env before header req hit := by
        rintro ⟨htrue, _⟩
        cases hok.symm.trans htrue
      have hstep : createAlone env (before, ⟨posted, header, wait, .findingKey req limits, none, none⟩)
          (.findKey w.found w.lookupOk) = some (before, ⟨posted, header, wait, .answered .failed, none, none⟩) := by
        simp [createAlone, Creation.step, Creation.key, hkey, hok]
      rw [serve_step rfl hstep]
      exact hlate hunknown _ rfl
    | true =>
      cases hfound : findByIdempotencyKey before.rows before.now key (env.hash (idempotencyInput req)) w.found with
      | none =>
        have hunknown := World.not_knows hkey fun hit hhit => by cases hfound.symm.trans hhit
        have hstuck : createAlone env (before, ⟨posted, header, wait, .findingKey req limits, none, none⟩)
            (.findKey w.found w.lookupOk) = none := by
          simp [createAlone, Creation.step, Creation.key, hkey, hok, hfound]
        rw [serve_stuck (by rw [World.next, Option.bind_some, hstuck])]
        exact .unknown hallowed hunknown rfl fun haccepted => by cases haccepted
      | some answer =>
        cases answer with
        | none =>
          have hunknown := World.not_knows hkey fun hit hhit => by cases hfound.symm.trans hhit
          have hstep : createAlone env (before, ⟨posted, header, wait, .findingKey req limits, none, none⟩)
              (.findKey w.found w.lookupOk) =
                some (before, ⟨posted, header, wait, .checkingLoad req limits, some before.now, none⟩) := by
            simp [createAlone, Creation.step, Creation.key, hkey, hok, hfound]
          rw [serve_step rfl hstep]
          exact hlate hunknown _ rfl
        | some hit =>
          have hstep : createAlone env (before, ⟨posted, header, wait, .findingKey req limits, none, none⟩)
              (.findKey w.found w.lookupOk) =
                some (before, ⟨posted, header, wait,
                  .answered (if hit.bodyMatches then .existing hit.token else .idempotencyConflict hit.token),
                  some before.now, none⟩) := by
            simp [createAlone, Creation.step, Creation.key, hkey, hok, hfound]
          rw [serve_step rfl hstep, serve_answered rfl]
          exact .known hit hallowed ⟨hok, key, hkey, hfound⟩ rfl rfl rfl

/-- How a request ends that the cache does not know. -/
theorem World.missOutcome (n : ℕ) :
    MissOutcome w env before posted req header
      (w.serve env cached (n + 2) (before, ⟨posted, header, wait, .checkingCallback req limits, none, none⟩)) := by
  cases hcheck : env.checkCallback req with
  | error msg =>
    have hstep : createAlone env (before, ⟨posted, header, wait, .checkingCallback req limits, none, none⟩)
        .checkCallback = some (before, ⟨posted, header, wait, .answered (.refused (.validation msg)), none, none⟩) := by
      unfold CreateEnv.checkCallback at hcheck
      simp only [createAlone, Creation.step, hcheck]
    rw [serve_step rfl hstep, serve_answered rfl]
    exact .refused msg hcheck rfl
  | ok _ =>
    have hstep : createAlone env (before, ⟨posted, header, wait, .checkingCallback req limits, none, none⟩)
        .checkCallback = some (before, ⟨posted, header, wait, .findingKey req limits, none, none⟩) := by
      unfold CreateEnv.checkCallback at hcheck
      simp only [createAlone, Creation.step, hcheck]
    rw [serve_step rfl hstep]
    exact outcome_of_findingKey n hcheck

/-- A lookup finds one row at most. -/
theorem World.Knows.unique {hit hit' : IdempotencyHit} (h : w.Knows env before header req hit)
    (h' : w.Knows env before header req hit') : hit' = hit := by
  obtain ⟨_, key, hkey, hfound⟩ := h
  obtain ⟨_, key', hkey', hfound'⟩ := h'
  cases hkey.symm.trans hkey'
  cases hfound.symm.trans hfound'
  rfl

/-- The checks of a request leave its callback URL alone. -/
theorem SubmissionRequest.callbackUrl_of_prepare {api : AppState} (h : posted.prepare api = .ok (req, limits)) :
    req.callbackUrl = posted.callbackUrl := by
  obtain ⟨source, stdin, spec, _, _, _, _, _, _, rfl⟩ := SubmissionRequest.prepare_eq_ok_iff.mp h
  rfl

/-- The row a request inserted carries its callback URL. -/
theorem CreateProgress.honoured {after : Fleet} {c : Creation} (h : CreateProgress env before posted header after c)
    (hbehind : c.phase.accepted = true → c.phase.beforeInsert = false) : c.Honoured after := by
  intro haccepted url hurl
  cases h with
  | untouched hposted hheader hphase hinserted hafter hchecked =>
    rw [hbehind haccepted] at hphase
    cases hphase
  | inserted hposted hheader hphase req limits token hprepared hinserted htoken hrows =>
    refine ⟨_, by rw [hrows]; exact List.mem_append_right _ (List.mem_singleton_self _), ?_, ?_⟩
    · unfold Creation.answeredToken
      split
      · rename_i hexisting
        rw [hexisting] at hphase
        cases hphase
      · rename_i token' hcreated
        rw [htoken token' (by rw [hcreated]; rfl)]
        rfl
      · rw [hinserted]
        rfl
      · rename_i hexisting hcreated hfinished
        cases hat : c.phase with
        | answered reply =>
          rw [hat] at haccepted hphase
          cases reply with
          | existing token' => exact absurd hat (hexisting token')
          | created token' => exact absurd hat (hcreated token')
          | finished sub => exact absurd hat (hfinished sub)
          | cached sub => cases hphase
          | refused | idempotencyConflict | backpressure | failed => cases haccepted
        | received | checkingCache | checkingCallback | findingKey | checkingLoad | inserting | notifying | waiting =>
          rw [hat] at haccepted
          cases haccepted
    · change req.callbackUrl = some url
      rw [SubmissionRequest.callbackUrl_of_prepare hprepared, ← hposted, hurl]

/-- A request that was not accepted has no callback to honour. -/
theorem Creation.honoured_of_not_accepted {store : Fleet} {c : Creation} (h : c.phase.accepted = false) :
    c.Honoured store := by
  intro haccepted
  cases h.symm.trans haccepted

/-- The callback of a request that is answered from the cache is lost. -/
theorem honoured_hit_iff {sub : Submission} :
    Creation.Honoured before ⟨posted, header, wait, .answered (.cached sub), none, none⟩ ↔
      posted.callbackUrl = none := by
  constructor
  · intro h
    cases hurl : posted.callbackUrl with
    | none => rfl
    | some url =>
      obtain ⟨r, _, hnone, _⟩ := h rfl url hurl
      cases hnone
  · intro hnone haccepted url hurl
    cases hnone.symm.trans hurl

/-- A request that the cache does not know is rejected for its callback URL or for its key. -/
theorem MissOutcome.rejected_iff {final : Fleet × Creation} (h : MissOutcome w env before posted req header final) :
    final.2.phase.rejected = true ↔ env.checkCallback req ≠ .ok () ∨
      ∃ hit, w.Knows env before header req hit ∧ hit.bodyMatches = false ∧ env.checkCallback req = .ok () := by
  cases h with
  | refused msg hrefused hphase => simp [hphase, hrefused, CreatePhase.rejected]
  | known hit hallowed hknows hstore hposted hphase =>
    constructor
    · intro hrejected
      refine Or.inr ⟨hit, hknows, ?_, hallowed⟩
      cases hmatches : hit.bodyMatches with
      | false => rfl
      | true =>
        rw [hphase, hmatches] at hrejected
        cases hrejected
    · rintro (hrefused | ⟨hit', hknows', hmatches, _⟩)
      · exact absurd hallowed hrefused
      · rw [hknows.unique hknows'] at hmatches
        rw [hphase, hmatches]
        rfl
  | unknown hallowed hunknown hrejected haccepted =>
    constructor
    · intro htrue
      cases htrue.symm.trans hrejected
    · rintro (hrefused | ⟨hit, hknows, _⟩)
      · exact absurd hallowed hrefused
      · exact absurd hknows (hunknown hit)

/-- A replay is answered with a row that carries the callback URL of the request. -/
def World.ReplaysCallback (w : World) (env : CreateEnv) (before : Fleet) (header : Option Bytes)
    (req : SubmissionRequest) : Prop :=
  env.checkCallback req = .ok () → ∀ hit, w.Knows env before header req hit → hit.bodyMatches = true →
    ∀ url, req.callbackUrl = some url → ∃ r ∈ before.rows, r.token = hit.token ∧ r.callbackUrl = some url

/-- The callback of a request that the cache does not know is honoured, unless it is answered with the row of a
request that named another one. -/
theorem MissOutcome.honoured_iff {final : Fleet × Creation} (h : MissOutcome w env before posted req header final)
    (hprogress : CreateProgress env before posted header final.1 final.2) (hurls : req.callbackUrl = posted.callbackUrl) :
    final.2.Honoured final.1 ↔ w.ReplaysCallback env before header req := by
  cases h with
  | refused msg hrefused hphase =>
    constructor
    · intro _ hallowed
      cases hrefused.symm.trans hallowed
    · intro _ haccepted
      rw [hphase] at haccepted
      cases haccepted
  | known hit hallowed hknows hstore hposted hphase =>
    constructor
    · intro hhonoured _ hit' hknows' hmatches url hurl
      cases hknows.unique hknows'
      rw [hmatches, if_pos rfl] at hphase
      obtain ⟨r, hr, htoken, hrurl⟩ := hhonoured (by rw [hphase]; rfl) url (by rw [hposted, ← hurls, hurl])
      rw [Creation.answeredToken, hphase] at htoken
      exact ⟨r, hstore ▸ hr, (Option.some.inj htoken).symm, hrurl⟩
    · intro hreplays haccepted url hurl
      cases hmatches : hit.bodyMatches with
      | false =>
        rw [hphase, hmatches] at haccepted
        cases haccepted
      | true =>
        rw [hposted, ← hurls] at hurl
        obtain ⟨r, hr, htoken, hrurl⟩ := hreplays hallowed hit hknows hmatches url hurl
        refine ⟨r, hstore ▸ hr, ?_, hrurl⟩
        rw [Creation.answeredToken, hphase, hmatches, htoken]
        rfl
  | unknown hallowed hunknown hrejected haccepted =>
    constructor
    · intro _ _ hit hknows
      exact absurd hknows (hunknown hit)
    · intro _
      exact hprogress.honoured haccepted

/-- A service that answers from its cache and one that does not treat a request alike if it names no callback URL
and its key is not in use for another body. -/
theorem transparent_hit_miss_iff {sub : Submission} {final : Fleet × Creation}
    (h : MissOutcome w env before posted req header final)
    (hprogress : CreateProgress env before posted header final.1 final.2)
    (hurls : req.callbackUrl = posted.callbackUrl) :
    Transparent (before, ⟨posted, header, wait, .answered (.cached sub), none, none⟩) final ↔
      req.callbackUrl = none ∧ ∀ found, w.Knows env before header req found → found.bodyMatches = true := by
  unfold Transparent
  rw [honoured_hit_iff, h.honoured_iff hprogress hurls, h.rejected_iff, hurls]
  constructor
  · rintro ⟨hrejects, hnone, hreplays⟩
    refine ⟨hnone, fun found hknows => ?_⟩
    cases hmatches : found.bodyMatches with
    | true => rfl
    | false =>
      have hallowed : env.checkCallback req = .ok () := by rw [CreateEnv.checkCallback, hurls, hnone]; rfl
      cases hrejects.mpr (Or.inr ⟨found, hknows, hmatches, hallowed⟩)
  · rintro ⟨hnone, hagreed⟩
    have hallowed : env.checkCallback req = .ok () := by rw [CreateEnv.checkCallback, hurls, hnone]; rfl
    refine ⟨Iff.intro (fun hrejected => ?_) ?_, hnone, ?_⟩
    · cases hrejected
    · rintro (hrefused | ⟨found, hknows, hmatches, _⟩)
      · exact absurd hallowed hrefused
      · cases hmatches.symm.trans (hagreed found hknows)
    · intro _ found _ _ url hurl
      rw [hurls, hnone] at hurl
      cases hurl

/-- Transparency is symmetric in the two services. -/
theorem Transparent.comm {s t : Fleet × Creation} : Transparent s t ↔ Transparent t s :=
  ⟨fun h => ⟨h.1.symm, h.2.2, h.2.1⟩, fun h => ⟨h.1.symm, h.2.2, h.2.1⟩⟩

end

/-- What it takes for two caches to make no difference to a checked request: it names no callback URL if one of
them knows it, its key is not in use for another body if just one does, and a replay asks for the callback of the
row it is answered with if none does. -/
structure CacheNeutral (w : World) (env : CreateEnv) (before : Fleet) (header : Option Bytes) (req : SubmissionRequest)
    (entry entry' : Option Submission) : Prop where
  silent : entry ≠ none ∨ entry' ≠ none → req.callbackUrl = none
  agreed : ¬ (entry = none ↔ entry' = none) → ∀ found, w.Knows env before header req found → found.bodyMatches = true
  replayed : entry = none → entry' = none → w.ReplaysCallback env before header req

/-- What is known of a request that misses the cache. -/
theorem World.handle_miss_spec (w : World) {env : CreateEnv}
    (cached : SubmissionRequest → ResourceLimits → Option Submission) (before : Fleet) {posted req : SubmissionRequest}
    {limits : ResourceLimits} (header : Option Bytes) (wait : Bool)
    (hprepared : posted.prepare env.api = .ok (req, limits)) (hmiss : cached req limits = none) :
    MissOutcome w env before posted req header (w.handle env cached before posted header wait) ∧
      CreateProgress env before posted header (w.handle env cached before posted header wait).1
        (w.handle env cached before posted header wait).2 := by
  refine ⟨?_, CreateProgress.of_reachable (reachable_serve w env cached 8 _)⟩
  rw [handle_miss hprepared hmiss]
  exact missOutcome 4

/-- Two services that differ in their result caches alone reject the same requests and honour the callbacks of
those they accept, exactly if the caches make no difference to the request. -/
theorem transparent_iff {Digest : Type*} (env : CreateEnv) (blake3 : Bytes → Digest) (toBits : ℚ → UInt64) (w : World)
    (cache cache' : Digest → Option Submission) (before : Fleet) (posted : SubmissionRequest) (header : Option Bytes)
    (wait : Bool) :
    Transparent (w.handle env (fun req limits => cache (req.resultKey blake3 toBits limits)) before posted header wait)
        (w.handle env (fun req limits => cache' (req.resultKey blake3 toBits limits)) before posted header wait) ↔
      ∀ req limits, posted.prepare env.api = .ok (req, limits) →
        CacheNeutral w env before header req (cache (req.resultKey blake3 toBits limits))
          (cache' (req.resultKey blake3 toBits limits)) := by
  cases hprepare : posted.prepare env.api with
  | error e =>
    rw [World.handle_refused hprepare, World.handle_refused hprepare]
    constructor
    · intro _ req limits hok
      cases hok
    · intro _
      exact ⟨Iff.rfl, Creation.honoured_of_not_accepted rfl, Creation.honoured_of_not_accepted rfl⟩
  | ok checked =>
    obtain ⟨req, limits⟩ := checked
    have hurls := SubmissionRequest.callbackUrl_of_prepare hprepare
    have hneutral (p : SubmissionRequest → ResourceLimits → Prop) :
        (∀ req' limits', (Except.ok (req, limits) : Except CreateError _) = .ok (req', limits') → p req' limits') ↔
          p req limits := by
      constructor
      · exact fun h => h req limits rfl
      · rintro h _ _ ⟨⟩
        exact h
    rw [hneutral]
    cases hentry : cache (req.resultKey blake3 toBits limits) with
    | some sub =>
      rw [World.handle_hit hprepare hentry]
      cases hentry' : cache' (req.resultKey blake3 toBits limits) with
      | some sub' =>
        rw [World.handle_hit hprepare hentry', Transparent, honoured_hit_iff, honoured_hit_iff, ← hurls]
        constructor
        · rintro ⟨_, hnone, _⟩
          exact ⟨fun _ => hnone, fun h => absurd (by simp) h, nofun⟩
        · intro h
          have hnone := h.silent (Or.inl (by simp))
          exact ⟨Iff.rfl, hnone, hnone⟩
      | none =>
        obtain ⟨houtcome, hprogress⟩ := w.handle_miss_spec (fun req limits => cache' (req.resultKey blake3 toBits limits))
          before header wait hprepare hentry'
        rw [transparent_hit_miss_iff houtcome hprogress hurls]
        constructor
        · rintro ⟨hnone, hagreed⟩
          exact ⟨fun _ => hnone, fun _ => hagreed, nofun⟩
        · intro h
          exact ⟨h.silent (Or.inl (by simp)), h.agreed (by simp)⟩
    | none =>
      obtain ⟨houtcome, hprogress⟩ := w.handle_miss_spec (fun req limits => cache (req.resultKey blake3 toBits limits))
        before header wait hprepare hentry
      cases hentry' : cache' (req.resultKey blake3 toBits limits) with
      | some sub' =>
        rw [Transparent.comm, World.handle_hit hprepare hentry', transparent_hit_miss_iff houtcome hprogress hurls]
        constructor
        · rintro ⟨hnone, hagreed⟩
          exact ⟨fun _ => hnone, fun _ => hagreed, fun _ h => by cases h⟩
        · intro h
          exact ⟨h.silent (Or.inr (by simp)), h.agreed (by simp)⟩
      | none =>
        obtain ⟨houtcome', hprogress'⟩ := w.handle_miss_spec (fun req limits => cache' (req.resultKey blake3 toBits limits))
          before header wait hprepare hentry'
        rw [Transparent, houtcome.honoured_iff hprogress hurls, houtcome'.honoured_iff hprogress' hurls,
          houtcome.rejected_iff, houtcome'.rejected_iff]
        constructor
        · rintro ⟨_, hreplays, _⟩
          exact ⟨fun h => absurd h (by simp), fun h => absurd Iff.rfl h, fun _ _ => hreplays⟩
        · intro h
          exact ⟨Iff.rfl, h.replayed rfl rfl, h.replayed rfl rfl⟩

/-- A URL of the machine itself. -/
def loopbackUrl : Url := ⟨"http", some "localhost", some (.domain "localhost")⟩

/-- A service that is asked to call that URL. -/
def loopbackEnv : CreateEnv :=
  { pythonEnv with validateCallbackUrl := fun _ => validateCallbackUrl (fun _ => none) (fun _ => "") loopbackUrl }

/-- A request that names it. -/
def loopbackRequest : SubmissionRequest := { pythonRequest with callbackUrl := some "http://localhost/" }

/-- A world in which nothing fails. -/
def calmWorld : World := ⟨none, true, 0, 1, 5, .acknowledged, true, true, none⟩

/-- What the same program without a callback left in the cache. -/
def passedSubmission : Submission where
  token := Token.new 1 4
  languageId := 71
  status := .accepted
  limits := .default
  stdout := some [111, 107, 10]
  stderr := some []
  compileOutput := none
  exitCode := some 0
  signal := none
  cpuTime := some 0
  compileTime := none
  wallTime := some 0
  memoryKb := some 0
  createdAt := 0
  finishedAt := some 0

/-- The request is answered from one cache and rejected with another. -/
theorem cache_not_transparent :
    ¬ ∀ (env : CreateEnv) (blake3 : Bytes → Bytes) (toBits : ℚ → UInt64) (w : World)
      (cache cache' : Bytes → Option Submission) (before : Fleet) (posted : SubmissionRequest) (header : Option Bytes)
      (wait : Bool),
      Transparent
        (w.handle env (fun req limits => cache (req.resultKey blake3 toBits limits)) before posted header wait)
        (w.handle env (fun req limits => cache' (req.resultKey blake3 toBits limits)) before posted header wait) := by
  intro hclaim
  have hrejects := (hclaim loopbackEnv id (fun _ => 0) calmWorld (fun _ => some passedSubmission) (fun _ => none)
    Fleet.init loopbackRequest none false).1
  have hcached : (calmWorld.handle loopbackEnv (fun _ _ => some passedSubmission) Fleet.init loopbackRequest none
      false).2.phase.rejected = false := by decide +kernel
  have hchecked : (calmWorld.handle loopbackEnv (fun _ _ => none) Fleet.init loopbackRequest none
      false).2.phase.rejected = true := by decide +kernel
  cases hcached.symm.trans (hrejects.mpr hchecked)

end ZeroCode.Api
