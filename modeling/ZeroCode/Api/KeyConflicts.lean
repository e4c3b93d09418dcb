import ZeroCode.Api.BatchSingle
import ZeroCode.Api.HashPreimages

/-!
# Conflicts of idempotency keys

A request whose key is known gets the token of a row with the key, as an acknowledgement or
as a conflict. Which of the two is decided by a hash of the language, the source and the
input. The limits and the callback URL are not hashed, so a request that asks for other
limits or another callback is acknowledged with a submission that has neither.
-/

namespace ZeroCode.Api

open ZeroCode.Cache ZeroCode.Core ZeroCode.Foundation ZeroCode.Sandbox ZeroCode.Worker

/-- What a submission is created from. -/
structure SubmissionBody where
  languageId : ℕ
  sourceCode : Bytes
  stdin : Option Bytes
  limits : ResourceLimits
  callbackUrl : Option String
  deriving DecidableEq, Repr

/-- The body of a checked request. -/
def SubmissionRequest.body (req : SubmissionRequest) (limits : ResourceLimits) : SubmissionBody :=
  ⟨req.languageId, req.sourceCode, req.stdin, limits, req.callbackUrl⟩

/-- The part of a body that is hashed. -/
def SubmissionBody.program (body : SubmissionBody) : ℕ × Bytes × Option Bytes :=
  (body.languageId, body.sourceCode, body.stdin)

/-- Rows with a key are inserted by requests, and no two requests draw the same token. -/
def KeyedByRequests (s : Creating) : CreateAction → Prop
  | .store (.fleet (.insert new)) => new.idempotencyKey = none
  | .advance _ (.insert milliseconds random _) =>
    ∀ c ∈ s.creations, c.inserted.map Prod.snd ≠ some (Token.new milliseconds random)
  | _ => True

instance (s : Creating) : DecidablePred (KeyedByRequests s)
  | .store (.fleet (.insert new)) => inferInstanceAs (Decidable (new.idempotencyKey = none))
  | .advance _ (.insert milliseconds random _) =>
    inferInstanceAs (Decidable (∀ c ∈ s.creations, c.inserted.map Prod.snd ≠ some (Token.new milliseconds random)))
  | .store (.fleet (.claim ..)) | .store (.fleet (.publishProcessing ..)) | .store (.fleet (.execute ..))
  | .store (.fleet (.writeResult ..)) | .store (.fleet (.writeSandboxFailure ..)) | .store (.fleet (.publishFinished ..))
  | .store (.fleet (.crash ..)) | .store (.fleet .sweep) | .store (.fleet (.tick ..)) | .store (.scrubPayloads _)
  | .store (.expireOldRows _) | .arrive .. | .advance _ .prepare | .advance _ (.checkCache _) | .advance _ .checkCallback
  | .advance _ (.findKey ..) | .advance _ (.checkLoad _) | .advance _ (.notify _) | .advance _ (.wait ..) => isTrue trivial

/-- The steps that decide what a request that is not turned away gets for its key: the result cache has an answer
for it, or the key is looked up. -/
def CreateStep.settlesKey : CreateStep → Bool
  | .checkCache hit => hit.isSome
  | .findKey _ ok => ok
  | .prepare | .checkCallback | .checkLoad _ | .insert .. | .notify _ | .wait .. => false

/-- The request may still insert. -/
def CreatePhase.undecided (phase : CreatePhase) : Bool := phase.early || phase.pending

section Keys

variable (env : CreateEnv)

/-- What a request creates, if it is accepted. -/
def Creation.body (c : Creation) : Option SubmissionBody :=
  match c.posted.prepare env.api with
  | .ok (req, limits) => some (req.body limits)
  | .error _ => none

/-- The part of it that is hashed. -/
def Creation.program (c : Creation) : Option (ℕ × Bytes × Option Bytes) := (c.body env).map SubmissionBody.program

/-- What has been hashed for a key, or will be. -/
def Creating.hashed (s : Creating) : Set Bytes :=
  {input | ∃ c ∈ s.creations, ∃ req limits, c.posted.prepare env.api = .ok (req, limits) ∧ input = idempotencyInput req}

/-- The row of a key was inserted by this request, with the hash of its program. -/
def Creation.Wrote (c : Creation) (r : Row) : Prop :=
  c.inserted = some (r.createdAt, r.token) ∧ ∃ req limits, c.posted.prepare env.api = .ok (req, limits) ∧
    r.idempotencyHash = some (env.hash (idempotencyInput req))

/-- The requests have inserted under different tokens. -/
def Creation.TokensApart (a b : Creation) : Prop :=
  ∀ time token, a.inserted = some (time, token) → b.inserted.map Prod.snd ≠ some token

/-- A request that may still insert has not done so, and goes on with what it has checked. -/
structure Creation.Fresh (c : Creation) : Prop where
  carries : ∀ checked, c.phase.checked = some checked → c.posted.prepare env.api = .ok checked
  uninserted : c.phase.undecided = true → c.inserted = none

/-- Every row with a key has its request, and no two requests have one token. -/
structure BodyInv (s : Creating) : Prop where
  fresh : ∀ c ∈ s.creations, c.Fresh env
  distinct : s.creations.Pairwise Creation.TokensApart
  written : ∀ r ∈ s.store.rows, r.idempotencyKey ≠ none → ∃ c ∈ s.creations, c.Wrote env r

/-- A step of a request leaves the table and what was inserted, or inserts the row of the request. -/
inductive Creation.Progress (store : Fleet) (c : Creation) (a : CreateStep) (store' : Fleet) (c' : Creation) : Prop
  | kept (phase : CreatePhase) (lookedUpAt : Option ℚ) (hstore : store' = store)
    (hc : c' = { c with phase := phase, lookedUpAt := lookedUpAt }) (hfresh : c'.Fresh env)
  | inserted (milliseconds random : ℕ) (reply : Reply) (phase : CreatePhase) (req : SubmissionRequest)
    (limits : ResourceLimits) (new : NewSubmission) (ha : a = .insert milliseconds random reply)
    (hprepared : c.posted.prepare env.api = .ok (req, limits))
    (hnew : new = req.newSubmission limits (Token.new milliseconds random) c.key (env.hash (idempotencyInput req)))
    (hstore : store' = { store with rows := store.rows ++ [new.row store.now] })
    (hc : c' = { c with phase := phase, inserted := some (store.now, Token.new milliseconds random) })
    (hnone : c.inserted = none) (hfresh : c'.Fresh env)

variable {env}

/-- Every step of a request is of one of the two kinds. -/
theorem Creation.progress_of_step {store store' : Fleet} {c c' : Creation} {a : CreateStep} (h : c.Fresh env)
    (hstep : c.step env store a = some (store', c')) : c.Progress env store a store' c' := by
  have hends (phase : CreatePhase) (lookedUpAt : Option ℚ) (hchecked : phase.checked = none)
      (hdecided : phase.undecided = false) :
      c.Progress env store a store { c with phase := phase, lookedUpAt := lookedUpAt } := by
    refine .kept phase lookedUpAt rfl rfl ⟨fun checked hcarried => ?_, fun hopen => ?_⟩
    · cases hchecked.symm.trans hcarried
    · cases hdecided.symm.trans hopen
  have hgoes (phase : CreatePhase) (lookedUpAt : Option ℚ) (hchecked : phase.checked = c.phase.checked)
      (hopen : c.phase.undecided = true) :
      c.Progress env store a store { c with phase := phase, lookedUpAt := lookedUpAt } :=
    .kept phase lookedUpAt rfl rfl
      ⟨fun checked hcarried => h.carries checked (hchecked.symm.trans hcarried), fun _ => h.uninserted hopen⟩
  cases Creation.move_of_step hstep with
  | prepared req limits hat hprepared =>
    refine .kept _ c.lookedUpAt rfl rfl ⟨fun checked hcarried => ?_, fun _ => h.uninserted (by rw [hat]; rfl)⟩
    cases hcarried
    exact hprepared
  | cacheMiss _ _ hat | callbackAllowed _ _ hat | keyless _ _ _ _ hat | keyUnknown _ _ _ _ hat | admitted _ _ _ hat =>
    exact hgoes _ _ (by rw [hat]; rfl) (by rw [hat]; rfl)
  | refused | cacheHit | callbackRefused | keyKnown | lookupFailed | shed | insertFailed | notifyFailed | startsWaiting
  | created | waitFailed | finished | gone => exact hends _ _ rfl rfl
  | inserted milliseconds random reply req limits new hat hnew hcommitted hfresh =>
    have hprepared : c.posted.prepare env.api = .ok (req, limits) := h.carries _ (by rw [hat]; rfl)
    refine .inserted milliseconds random reply _ req limits new rfl hprepared hnew rfl rfl
      (h.uninserted (by rw [hat]; rfl)) ?_
    cases reply <;> exact ⟨(fun checked hcarried => by cases hcarried), fun hopen => by cases hopen⟩

/-- Whether a request wrote a row shows in the identity of the row. -/
theorem Creation.Wrote.of_identity {c : Creation} {r r' : Row} (h : c.Wrote env r) (hidentity : r.identity = r'.identity) :
    c.Wrote env r' := by
  have htime : r.createdAt = r'.createdAt := congrArg RowIdentity.createdAt hidentity
  have htoken : r.token = r'.token := congrArg RowIdentity.token hidentity
  have hhash : r.idempotencyHash = r'.idempotencyHash := congrArg RowIdentity.idempotencyHash hidentity
  rw [Creation.Wrote, ← htime, ← htoken, ← hhash]
  exact h

/-- Nothing has happened yet. -/
theorem BodyInv.init : BodyInv env Creating.init where
  fresh c hc := by cases hc
  distinct := List.Pairwise.nil
  written r hr := by cases hr

/-- A step of the rest of the system keeps the invariant. -/
theorem BodyInv.of_store {s : Creating} {t : Fleet} {a : StoreAction} (h : BodyInv env s)
    (hallowed : KeyedByRequests s (.store a)) (hstep : storeStep s.store a = some t) :
    BodyInv env { s with store := t } where
  fresh := h.fresh
  distinct := h.distinct
  written r' hr' hkey := by
    have hkeyless (new : NewSubmission) (heq : a = .fleet (.insert new)) : new.idempotencyKey = none := by
      subst heq
      exact hallowed
    obtain ⟨r, hr, hidentity⟩ := exists_keyed_of_storeStep hkeyless hstep hr' hkey
    have hkeyed : r.idempotencyKey ≠ none := by
      rw [show r.idempotencyKey = r'.idempotencyKey from congrArg RowIdentity.idempotencyKey hidentity]
      exact hkey
    obtain ⟨c, hc, hwrote⟩ := h.written r hr hkeyed
    exact ⟨c, hc, hwrote.of_identity hidentity⟩

/-- A request that arrives keeps the invariant. -/
theorem BodyInv.arrive {s : Creating} (h : BodyInv env s) (posted : SubmissionRequest) (header : Option Bytes)
    (wait : Bool) : BodyInv env { s with creations := s.creations ++ [⟨posted, header, wait, .received, none, none⟩] } where
  fresh := forall_mem_concat h.fresh ⟨(fun checked hcarried => by cases hcarried), fun _ => rfl⟩
  distinct := by
    refine List.pairwise_append.mpr ⟨h.distinct, List.pairwise_singleton _ _, fun a _ b hb time token _ htoken => ?_⟩
    rw [List.mem_singleton.mp hb] at htoken
    cases htoken
  written r hr hkey := by
    obtain ⟨c, hc, hwrote⟩ := h.written r hr hkey
    exact ⟨c, List.mem_append_left _ hc, hwrote⟩

/-- Having other tokens is symmetric. -/
theorem Creation.TokensApart.symm {a b : Creation} (h : a.TokensApart b) : b.TokensApart a := by
  intro time token hb ha
  obtain ⟨⟨time', token'⟩, hinserted, rfl⟩ := Option.map_eq_some_iff.mp ha
  exact h time' token' hinserted (by rw [hb]; rfl)

/-- A step of a request keeps the invariant. -/
theorem BodyInv.advance {s : Creating} (h : BodyInv env s) {i : ℕ} {c c' : Creation} {store : Fleet} {a : CreateStep}
    (hallowed : KeyedByRequests s (.advance i a)) (hc : s.creations[i]? = some c)
    (hstep : c.step env s.store a = some (store, c')) :
    BodyInv env { store := store, creations := s.creations.set i c' } := by
  have hmem : c ∈ s.creations := List.mem_of_getElem? hc
  cases Creation.progress_of_step (h.fresh c hmem) hstep with
  | kept phase lookedUpAt hstore hc' hfresh =>
    subst hstore
    refine ⟨forall_mem_set h.fresh hfresh i, ?_, fun r hr hkey => ?_⟩
    · refine pairwise_set (fun _ _ => Creation.TokensApart.symm) h.distinct fun j other hne hj => ?_
      have hold := relation_of_pairwise (fun _ _ => Creation.TokensApart.symm) h.distinct hc hj hne
      rw [hc']
      exact hold
    · refine exists_mem_set hc (fun hold => ?_) (h.written r hr hkey)
      rw [hc']
      exact hold
  | inserted milliseconds random reply phase req limits new ha hprepared hnew hstore hc' hnone hfresh =>
    subst ha
    refine ⟨forall_mem_set h.fresh hfresh i, ?_, fun r hr hkey => ?_⟩
    · refine pairwise_set (fun _ _ => Creation.TokensApart.symm) h.distinct fun j other hne hj => ?_
      intro time token htoken
      rw [hc'] at htoken
      cases htoken
      exact hallowed other (List.mem_of_getElem? hj)
    · rw [hstore] at hr
      rcases List.mem_append.mp hr with hold | hlast
      · refine exists_mem_set hc (fun hwrote => ?_) (h.written r hold hkey)
        cases hnone.symm.trans hwrote.1
      · have hlt : i < s.creations.length := (List.getElem?_eq_some_iff.mp hc).1
        refine ⟨c', List.mem_set hlt c', ?_⟩
        rw [List.mem_singleton.mp hlast] at hkey ⊢
        subst hnew hc'
        refine ⟨rfl, req, limits, hprepared, ?_⟩
        obtain ⟨key, hsome⟩ := Option.ne_none_iff_exists'.mp hkey
        change c.key = some key at hsome
        change (c.key.map fun _ => env.hash (idempotencyInput req)) = some (env.hash (idempotencyInput req))
        rw [hsome, Option.map_some]

/-- Every step keeps the invariant. -/
theorem BodyInv.of_step {s t : Creating} {a : CreateAction} (h : BodyInv env s) (hallowed : KeyedByRequests s a)
    (hstep : s.step env a = some t) : BodyInv env t := by
  cases a with
  | store a =>
    obtain ⟨store, hstore, rfl⟩ := Option.map_eq_some_iff.mp hstep
    exact h.of_store hallowed hstore
  | arrive posted header wait =>
    cases hstep
    exact h.arrive posted header wait
  | advance i a =>
    obtain ⟨c, hc, hmoved⟩ := Option.bind_eq_some_iff.mp hstep
    obtain ⟨next, hnext, rfl⟩ := Option.map_eq_some_iff.mp hmoved
    exact h.advance hallowed hc hnext

/-- Checked requests are hashed from the same bytes exactly if their programs are the same. -/
theorem idempotencyInput_eq_iff {posted posted' req req' : SubmissionRequest} {limits limits' : ResourceLimits}
    (hids : ∀ spec ∈ env.api.languages, spec.id < 2 ^ 32) (h : posted.prepare env.api = .ok (req, limits))
    (h' : posted'.prepare env.api = .ok (req', limits')) :
    idempotencyInput req = idempotencyInput req' ↔ (req.body limits).program = (req'.body limits').program := by
  have fields_of {posted req : SubmissionRequest} {limits : ResourceLimits}
      (h : posted.prepare env.api = .ok (req, limits)) : ∃ fields : IdempotencyFields,
        (req.body limits).program = (fields.languageId.toNat, fields.source.1, fields.stdin.map Subtype.val) ∧
          idempotencyInput req = fields.input := by
    obtain ⟨hid, hsource, hstdin⟩ := SubmissionRequest.fits_of_prepare hids h
    have hid' : (UInt32.ofNat req.languageId).toNat = req.languageId := UInt32.toNat_ofNat_of_lt' hid
    rw [idempotencyInput_eq]
    cases hinput : req.stdin with
    | none =>
      refine ⟨⟨UInt32.ofNat req.languageId, ⟨req.sourceCode, hsource⟩, none⟩, ?_, ?_⟩
      · simp only [SubmissionRequest.body, SubmissionBody.program, hid', hinput, Option.map_none]
      · simp only [IdempotencyFields.input, hid', Option.map_none]
    | some stdin =>
      refine ⟨⟨UInt32.ofNat req.languageId, ⟨req.sourceCode, hsource⟩, some ⟨stdin, hstdin stdin hinput⟩⟩, ?_, ?_⟩
      · simp only [SubmissionRequest.body, SubmissionBody.program, hid', hinput, Option.map_some]
      · simp only [IdempotencyFields.input, hid', Option.map_some]
  obtain ⟨fields, hprogram, hbytes⟩ := fields_of h
  obtain ⟨fields', hprogram', hbytes'⟩ := fields_of h'
  constructor
  · intro hsame
    rw [hbytes, hbytes'] at hsame
    rw [hprogram, hprogram', IdempotencyFields.input_injective hsame]
  · intro hsame
    have hid : req.languageId = req'.languageId := congrArg Prod.fst hsame
    have hsource : req.sourceCode = req'.sourceCode := congrArg (fun program => program.2.1) hsame
    have hstdin : req.stdin = req'.stdin := congrArg (fun program => program.2.2) hsame
    rw [idempotencyInput_eq, idempotencyInput_eq, hid, hsource, hstdin]

/-- The second of these requests has the key of the first, which inserted during the day before. -/
structure Creating.Repeats (s : Creating) (i : ℕ) (first second : Creation) (token : Token) : Prop where
  arrived : first ∈ s.creations
  asking : s.creations[i]? = some second
  key : ∃ key, first.key = some key ∧ second.key = some key
  inserted : ∃ time, first.inserted = some (time, token) ∧ s.store.now - idempotencyWindow < time

variable (env) in
/-- The answer of a lookup is right: the token of the first request exactly if the second asks for the same
submission, and otherwise a conflict. -/
structure Creation.AnswersKey (first second : Creation) (token : Token) (phase : CreatePhase) : Prop where
  existing : phase = .answered (.existing token) ↔ second.body env = first.body env
  conflict : second.body env ≠ first.body env → ∃ existing, phase = .answered (.idempotencyConflict existing)

variable (env) in
/-- The hash tells the requests apart: the lookup returns the row of the first, and if their programs are the same, so
are their limits and callbacks; or it returns the row of another with the key, and the second asks for something
else than the first and for another program than that one. -/
def Creating.ToldApart (s : Creating) (first second : Creation) (token found : Token) : Prop :=
  (found = token ∧ (second.program env = first.program env → second.body env = first.body env)) ∨
    (found ≠ token ∧ second.body env ≠ first.body env ∧ ∀ other ∈ s.creations,
      other.inserted.map Prod.snd = some found → second.program env ≠ other.program env)

/-- The request of a token is determined. -/
theorem BodyInv.eq_of_token {s : Creating} (h : BodyInv env s) {a b : Creation} (ha : a ∈ s.creations)
    (hb : b ∈ s.creations) {token : Token} (hatoken : a.inserted.map Prod.snd = some token)
    (hbtoken : b.inserted.map Prod.snd = some token) : a = b := by
  obtain ⟨j, hj⟩ := List.mem_iff_getElem?.mp ha
  obtain ⟨k, hk⟩ := List.mem_iff_getElem?.mp hb
  by_cases hjk : k = j
  · subst hjk
    exact Option.some.inj (hj.symm.trans hk)
  · obtain ⟨⟨time, _⟩, hinserted, rfl⟩ := Option.map_eq_some_iff.mp hatoken
    have hapart := relation_of_pairwise (fun _ _ => Creation.TokensApart.symm) h.distinct hj hk hjk
    exact absurd hbtoken (hapart time _ hinserted)

/-- A right answer is a reply for the key. -/
theorem Creation.AnswersKey.reply_of_key {first second : Creation} {token : Token} {phase : CreatePhase}
    (h : Creation.AnswersKey env first second token phase) :
    phase = .answered (.existing token) ∨ ∃ existing, phase = .answered (.idempotencyConflict existing) := by
  by_cases hsame : second.body env = first.body env
  · exact Or.inl (h.existing.mpr hsame)
  · exact Or.inr (h.conflict hsame)

/-- A row that is found is the right answer exactly if it is the row of the first request and matches if and only if
the bodies are the same, or another's and a conflict where they are not. -/
theorem answersKey_found_iff {first second : Creation} {token row : Token} {bodyMatches : Bool} :
    Creation.AnswersKey env first second token
        (.answered (if bodyMatches then .existing row else .idempotencyConflict row)) ↔
      (row = token ∧ (bodyMatches = true ↔ second.body env = first.body env)) ∨
        (row ≠ token ∧ second.body env ≠ first.body env ∧ bodyMatches = false) := by
  constructor
  · intro h
    by_cases hrow : row = token
    · subst hrow
      refine Or.inl ⟨rfl, ?_⟩
      rw [← h.existing]
      cases bodyMatches <;> simp
    · have hother : second.body env ≠ first.body env := by
        intro hsame
        have hreply := h.existing.mpr hsame
        cases bodyMatches with
        | true => exact hrow (CreateReply.existing.inj (CreatePhase.answered.inj hreply))
        | false => cases hreply
      obtain ⟨existing, hconflict⟩ := h.conflict hother
      refine Or.inr ⟨hrow, hother, ?_⟩
      cases bodyMatches with
      | true => cases hconflict
      | false => rfl
  · rintro (⟨rfl, hmatches⟩ | ⟨hrow, hother, rfl⟩)
    · refine ⟨?_, fun hother => ?_⟩
      · rw [← hmatches]
        cases bodyMatches <;> simp
      · cases bodyMatches with
        | true => exact absurd (hmatches.mp rfl) hother
        | false => exact ⟨row, rfl⟩
    · exact ⟨⟨(fun hreply => by cases hreply), fun hsame => absurd hsame hother⟩, fun _ => ⟨row, rfl⟩⟩

/-- A hash matches exactly if the programs are the same. -/
theorem Creation.Wrote.matches_iff {s : Creating}
    (hids : ∀ spec ∈ env.api.languages, spec.id < 2 ^ 32) (hcollision : Set.InjOn env.hash (s.hashed env))
    {other second : Creation} {r : Row} (hwrote : other.Wrote env r) (hother : other ∈ s.creations)
    (hsecond : second ∈ s.creations) {req : SubmissionRequest} {limits : ResourceLimits}
    (hprepared : second.posted.prepare env.api = .ok (req, limits)) :
    (r.idempotencyHash == some (env.hash (idempotencyInput req))) = true ↔
      second.program env = other.program env := by
  obtain ⟨_, req', limits', hprepared', hhash⟩ := hwrote
  have hprogram : second.program env = some (req.body limits).program := by
    rw [Creation.program, Creation.body, hprepared, Option.map_some]
  have hprogram' : other.program env = some (req'.body limits').program := by
    rw [Creation.program, Creation.body, hprepared', Option.map_some]
  have hinput : env.hash (idempotencyInput req') = env.hash (idempotencyInput req) ↔
      idempotencyInput req' = idempotencyInput req :=
    hcollision.eq_iff ⟨other, hother, req', limits', hprepared', rfl⟩ ⟨second, hsecond, req, limits, hprepared, rfl⟩
  rw [hhash, beq_iff_eq, Option.some_inj, hinput, idempotencyInput_eq_iff hids hprepared' hprepared, hprogram,
    hprogram', Option.some_inj, eq_comm]

/-- In every run, a request with a known key is answered as its body demands exactly if the result cache has no answer
for it, a row is found, and the hash tells the requests apart. -/
theorem key_answer_iff {s t : Creating} (reached : Reaches (Creating.step env) KeyedByRequests Creating.init s)
    (hids : ∀ spec ∈ env.api.languages, spec.id < 2 ^ 32) (hcollision : Set.InjOn env.hash (s.hashed env)) {i : ℕ}
    {first second : Creation} {token : Token} (hrepeats : s.Repeats i first second token) {a : CreateStep}
    (hsettles : a.settlesKey = true) (hstep : s.step env (.advance i a) = some t) :
    ∃ answered, t.creations[i]? = some answered ∧
      (Creation.AnswersKey env first second token answered.phase ↔
        ∃ row, a = .findKey (some row) true ∧ s.ToldApart env first second token row) := by
  have h : BodyInv env s :=
    reached.invariant (BodyInv env) BodyInv.init fun s a t hinv hallowed hstep => hinv.of_step hallowed hstep
  obtain ⟨c, hc, hmoved⟩ := Option.bind_eq_some_iff.mp hstep
  obtain ⟨⟨store', answered⟩, hnext, rfl⟩ := Option.map_eq_some_iff.mp hmoved
  obtain rfl : c = second := Option.some.inj (hc.symm.trans hrepeats.asking)
  have hmem : c ∈ s.creations := List.mem_of_getElem? hc
  have hlt : i < s.creations.length := (List.getElem?_eq_some_iff.mp hc).1
  obtain ⟨key, _, hkey⟩ := hrepeats.key
  obtain ⟨time, hinserted, _⟩ := hrepeats.inserted
  refine ⟨answered, List.getElem?_set_self hlt, ?_⟩
  cases Creation.move_of_step hnext with
  | prepared | refused | cacheMiss | callbackAllowed | callbackRefused | lookupFailed | shed | admitted | inserted
  | insertFailed | notifyFailed | startsWaiting | created | waitFailed | finished | gone => cases hsettles
  | cacheHit sub =>
    refine ⟨fun hanswers => ?_, fun ⟨_, hrow, _⟩ => by cases hrow⟩
    rcases hanswers.reply_of_key with hreply | ⟨_, hreply⟩ <;> cases hreply
  | keyless found ok req limits hat hnone => cases hnone.symm.trans hkey
  | keyUnknown found key' req limits hat hkey' hfound =>
    rcases findByIdempotencyKey_spec hfound with ⟨rfl, _⟩ | ⟨_, _, _, _, hhit⟩
    · refine ⟨fun hanswers => ?_, fun ⟨_, hrow, _⟩ => by cases hrow⟩
      rcases hanswers.reply_of_key with hreply | ⟨_, hreply⟩ <;> cases hreply
    · cases hhit
  | keyKnown found hit key' req limits hat hkey' hfound =>
    obtain ⟨_, hnone, _⟩ | ⟨r, hr, rfl, hremembers, hhit⟩ := findByIdempotencyKey_spec hfound
    · cases hnone
    cases hhit
    have hprepared : c.posted.prepare env.api = .ok (req, limits) := (h.fresh c hmem).carries _ (by rw [hat]; rfl)
    obtain ⟨other, hother, hwrote⟩ := h.written r hr (by simp [(remembers_eq_true.mp hremembers).1])
    have hmatches := hwrote.matches_iff hids hcollision hother hmem hprepared
    have hwriter : other.inserted.map Prod.snd = some r.token := by rw [hwrote.1, Option.map_some]
    have hfound_iff : (∃ row, CreateStep.findKey (some r.token) true = .findKey (some row) true ∧
        s.ToldApart env first c token row) ↔ s.ToldApart env first c token r.token := by
      refine ⟨fun ⟨row, hrow, htold⟩ => ?_, fun htold => ⟨r.token, rfl, htold⟩⟩
      cases hrow
      exact htold
    rw [answersKey_found_iff, hfound_iff, Creating.ToldApart]
    refine or_congr (and_congr_right fun htoken => ?_) (and_congr_right fun _ => and_congr_right fun _ => ?_)
    · have hfirst : first.inserted.map Prod.snd = some r.token := by
        rw [hinserted]
        exact congrArg some htoken.symm
      obtain rfl : other = first := h.eq_of_token hother hrepeats.arrived hwriter hfirst
      rw [hmatches]
      refine ⟨Iff.mp, fun himplies => ⟨himplies, fun hsame => ?_⟩⟩
      rw [Creation.program, Creation.program, hsame]
    · rw [Bool.eq_false_iff, Ne, hmatches]
      refine ⟨fun hdiffers writer hwriters hwrites => ?_, fun hdiffers => hdiffers other hother hwriter⟩
      rwa [h.eq_of_token hwriters hother hwrites hwriter]

end Keys

/-- A request arrives with a key, and perhaps with a callback URL. -/
def keyedArrival (source : Bytes) (url : Option String) : CreateAction :=
  .arrive { pythonRequest with sourceCode := source, callbackUrl := url } (some [107, 49]) false

/-- A request inserts, and another with its key gets to the lookup of the key. -/
def repeatedKey (source : Bytes) (url : Option String) : List CreateAction :=
  [keyedArrival [112] none] ++ untilLookup 0 none ++ untilAnswer 0 5 ++
    [keyedArrival source url, .advance 1 .prepare, .advance 1 (.checkCache none), .advance 1 .checkCallback]

/-- The requests after that run. -/
def repeatedCreating (source : Bytes) (url : Option String) : Creating :=
  lastState (checkedStep (Creating.step pythonEnv) KeyedByRequests) Creating.init (repeatedKey source url)

/-- The first of them. -/
def firstOfKey : Creation :=
  ⟨{ pythonRequest with sourceCode := [112] }, some [107, 49], false, .answered (.created (Token.new 1 5)), some 0,
    some (0, Token.new 1 5)⟩

/-- The second of them, at its lookup. -/
def secondOfKey (source : Bytes) (url : Option String) : Creation :=
  let req : SubmissionRequest := { pythonRequest with sourceCode := source, callbackUrl := url }
  ⟨req, some [107, 49], false, .findingKey req .default, none, none⟩

/-- The second has the key of the first. -/
theorem repeats_of_creations {s : Creating} {source : Bytes} {url : Option String}
    (hcreations : s.creations = [firstOfKey, secondOfKey source url]) (hnow : s.store.now = 0) :
    s.Repeats 1 firstOfKey (secondOfKey source url) (Token.new 1 5) where
  arrived := by
    rw [hcreations]
    exact List.mem_cons_self
  asking := by
    rw [hcreations]
    rfl
  key := ⟨"k1", by decide +kernel, show headerText [107, 49] = some "k1" by decide +kernel⟩
  inserted := ⟨0, rfl, by norm_num [hnow, idempotencyWindow]⟩

/-- A second request with another source is a conflict. -/
theorem key_answer_iff_source :
    repeatedCreating [113] none = ⟨(repeatedCreating [113] none).store, [firstOfKey, secondOfKey [113] none]⟩ ∧
      ∃ t answered, (repeatedCreating [113] none).step pythonEnv
          (.advance 1 (.findKey (some (Token.new 1 5)) true)) = some t ∧ t.creations[1]? = some answered ∧
        Creation.AnswersKey pythonEnv firstOfKey (secondOfKey [113] none) (Token.new 1 5) answered.phase := by
  have reached : Reaches (Creating.step pythonEnv) KeyedByRequests Creating.init (repeatedCreating [113] none) :=
    .of_runActions (repeatedKey [113] none) (runActions_eq_lastState (by decide +kernel))
  have hcreations : (repeatedCreating [113] none).creations = [firstOfKey, secondOfKey [113] none] := by decide +kernel
  have hrepeats := repeats_of_creations hcreations (by decide +kernel)
  have hsome : ((repeatedCreating [113] none).step pythonEnv
      (.advance 1 (.findKey (some (Token.new 1 5)) true))).isSome = true := by decide +kernel
  obtain ⟨t, hstep⟩ := Option.isSome_iff_exists.mp hsome
  obtain ⟨answered, hanswered, hiff⟩ :=
    key_answer_iff reached (by decide +kernel) (Set.injOn_of_injective fun _ _ => id) hrepeats rfl hstep
  refine ⟨by rw [← hcreations], t, answered, hstep, hanswered, hiff.mpr ⟨_, rfl, Or.inl ⟨rfl, fun hsame => ?_⟩⟩⟩
  exact absurd hsame (by decide +kernel)

/-- A second request that differs in its callback URL gets the token of the first. -/
theorem callback_acknowledged :
    ((repeatedCreating [112] (some "https://a.example/")).step pythonEnv
        (.advance 1 (.findKey (some (Token.new 1 5)) true))).map (fun t => t.creations[1]?.map Creation.phase) =
        some (some (.answered (.existing (Token.new 1 5)))) ∧
      (secondOfKey [112] (some "https://a.example/")).body pythonEnv ≠ firstOfKey.body pythonEnv ∧
      ¬ ∀ (env : CreateEnv) (s t : Creating), Reaches (Creating.step env) KeyedByRequests Creating.init s →
        (∀ spec ∈ env.api.languages, spec.id < 2 ^ 32) → Set.InjOn env.hash (s.hashed env) →
        ∀ (i : ℕ) (first second : Creation) (token : Token), s.Repeats i first second token →
        ∀ a : CreateStep, a.settlesKey = true → s.step env (.advance i a) = some t →
        ∃ answered, t.creations[i]? = some answered ∧ Creation.AnswersKey env first second token answered.phase := by
  have hphase : ((repeatedCreating [112] (some "https://a.example/")).step pythonEnv
      (.advance 1 (.findKey (some (Token.new 1 5)) true))).map (fun t => t.creations[1]?.map Creation.phase) =
        some (some (.answered (.existing (Token.new 1 5)))) := by decide +kernel
  have hother : (secondOfKey [112] (some "https://a.example/")).body pythonEnv ≠ firstOfKey.body pythonEnv := by
    decide +kernel
  refine ⟨hphase, hother, fun hclaim => ?_⟩
  have reached : Reaches (Creating.step pythonEnv) KeyedByRequests Creating.init
      (repeatedCreating [112] (some "https://a.example/")) :=
    .of_runActions (repeatedKey [112] (some "https://a.example/")) (runActions_eq_lastState (by decide +kernel))
  have hcreations : (repeatedCreating [112] (some "https://a.example/")).creations =
      [firstOfKey, secondOfKey [112] (some "https://a.example/")] := by decide +kernel
  have hrepeats := repeats_of_creations hcreations (by decide +kernel)
  obtain ⟨t, hstep, hfound⟩ := Option.map_eq_some_iff.mp hphase
  obtain ⟨answered, hanswered, hanswers⟩ := hclaim pythonEnv _ t reached (by decide +kernel)
    (Set.injOn_of_injective fun _ _ => id) 1 _ _ _ hrepeats _ rfl hstep
  rw [hanswered, Option.map_some, Option.some_inj] at hfound
  obtain ⟨existing, hconflict⟩ := hanswers.conflict hother
  cases hfound.symm.trans hconflict

end ZeroCode.Api
