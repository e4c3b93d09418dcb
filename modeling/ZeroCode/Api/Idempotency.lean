import ZeroCode.Api.CreateMoves

/-!
# Requests with an idempotency key

The handler of a submission looks its key up in one statement and inserts in another, and
nothing between them or in the table keeps two requests apart: the index on the key is not
unique. Requests whose lookups both miss both insert. As long as the key is not looked up
between another request's lookup and its insert, at most one request inserts within a day,
and the others find its row.
-/

namespace ZeroCode.Api

open ZeroCode.Cache ZeroCode.Core ZeroCode.Foundation ZeroCode.Sandbox ZeroCode.Worker

/-- The table and the requests in the order of their arrival. -/
structure Creating where
  store : Fleet
  creations : List Creation

/-- A step of the rest of the system, the arrival of a request, or a step of one. -/
inductive CreateAction
  | store (a : StoreAction)
  | arrive (posted : SubmissionRequest) (header : Option Bytes) (wait : Bool)
  | advance (i : ℕ) (a : CreateStep)
  deriving DecidableEq, Repr

/-- An empty table and no request. -/
def Creating.init : Creating := ⟨Fleet.init, []⟩

/-- One step of the system. -/
def Creating.step (env : CreateEnv) (s : Creating) : CreateAction → Option Creating
  | .store a => (storeStep s.store a).map fun store => { s with store := store }
  | .arrive posted header wait =>
    some { s with creations := s.creations ++ [⟨posted, header, wait, .received, none, none⟩] }
  | .advance i a =>
    s.creations[i]?.bind fun c => (c.step env s.store a).map fun next => ⟨next.1, s.creations.set i next.2⟩

/-- The request has found that nobody has its key, and has not inserted yet. -/
def CreatePhase.pending : CreatePhase → Bool
  | .checkingLoad _ _ | .inserting _ _ => true
  | _ => false

/-- The request has not asked for its key yet. -/
def CreatePhase.early : CreatePhase → Bool
  | .received | .checkingCache _ _ | .checkingCallback _ _ | .findingKey _ _ => true
  | _ => false

/-- What a step of a request found and what it left, as far as its key is concerned. -/
inductive Creation.Effect (store : Fleet) (c : Creation) : CreateStep → Fleet → Creation → Prop
  | early (a : CreateStep) (phase : CreatePhase) (hearly : c.phase.early = true)
    (hphase : phase.early = true ∨ ∃ reply, phase = .answered reply ∧ reply.turnedAway = true) :
    Effect store c a store { c with phase := phase }
  | found (a : CreateStep) (key : String) (r : Row) (reply : CreateReply) (hearly : c.phase.early = true)
    (hkey : c.key = some key) (hr : r ∈ store.rows) (hremembers : remembers store.now key r = true)
    (hreply : reply = .existing r.token ∨ reply = .idempotencyConflict r.token) :
    Effect store c a store { c with phase := .answered reply, lookedUpAt := some store.now }
  | missed (found : Option Token) (ok : Bool) (phase : CreatePhase) (lookedUpAt : Option ℚ)
    (hearly : c.phase.early = true) (hpending : phase.pending = true)
    (hmissed : ∀ key, c.key = some key → ∀ r ∈ store.rows, remembers store.now key r = false) :
    Effect store c (.findKey found ok) store { c with phase := phase, lookedUpAt := lookedUpAt }
  | pending (a : CreateStep) (phase : CreatePhase) (hpending : c.phase.pending = true)
    (hphase : phase.pending = true ∨ ∃ reply, phase = .answered reply ∧ reply.turnedAway = true) :
    Effect store c a store { c with phase := phase }
  | inserted (a : CreateStep) (new : NewSubmission) (phase : CreatePhase) (hpending : c.phase.pending = true)
    (hfresh : new.token ∉ store.rows.map Row.token) (hkey : new.idempotencyKey = c.key)
    (hphase : phase.early = false ∧ phase.pending = false) :
    Effect store c a { store with rows := store.rows ++ [new.row store.now] }
      { c with phase := phase, inserted := some (store.now, new.token) }
  | late (a : CreateStep) (phase : CreatePhase) (hlate : ∃ token, c.phase = .notifying token ∨ c.phase = .waiting token)
    (hphase : (∃ token, phase = .waiting token) ∨ ∃ reply, phase = .answered reply) :
    Effect store c a store { c with phase := phase }

/-- A lookup finds a row that remembers the key if there is one, and nothing otherwise. -/
theorem findByIdempotencyKey_spec {rows : List Row} {now : ℚ} {key : String} {bodyHash : Bytes} {found : Option Token}
    {answer : Option IdempotencyHit} (h : findByIdempotencyKey rows now key bodyHash found = some answer) :
    (found = none ∧ answer = none ∧ ∀ r ∈ rows, remembers now key r = false) ∨
      ∃ r ∈ rows, found = some r.token ∧ remembers now key r = true ∧
        answer = some ⟨r.token, r.idempotencyHash == some bodyHash⟩ := by
  cases found with
  | none =>
    simp only [findByIdempotencyKey] at h
    split at h
    · cases h
    · rename_i hnone
      cases h
      exact Or.inl ⟨rfl, rfl, by simpa using hnone⟩
  | some token =>
    obtain ⟨r, hfind, rfl⟩ := Option.map_eq_some_iff.mp h
    have hmatches := List.find?_some hfind
    rw [Bool.and_eq_true] at hmatches
    exact Or.inr ⟨r, List.mem_of_find?_eq_some hfind, congrArg some (beq_iff_eq.mp hmatches.1).symm, hmatches.2, rfl⟩

/-- Every step of a request has one of the effects. -/
theorem Creation.effect_of_step {env : CreateEnv} {store store' : Fleet} {c c' : Creation} {a : CreateStep}
    (hstep : c.step env store a = some (store', c')) : c.Effect store a store' c' := by
  cases Creation.move_of_step hstep with
  | prepared _ _ hat | cacheMiss _ _ hat | callbackAllowed _ _ hat =>
    exact .early _ _ (by rw [hat]; rfl) (Or.inl rfl)
  | refused _ hat | cacheHit _ _ _ hat | callbackRefused _ _ _ hat | lookupFailed _ _ _ _ hat =>
    exact .early _ _ (by rw [hat]; rfl) (Or.inr ⟨_, rfl, rfl⟩)
  | keyless found ok req limits hat hkey =>
    refine .missed _ _ _ _ (by rw [hat]; rfl) rfl fun key hsome => ?_
    cases hkey.symm.trans hsome
  | keyUnknown found key req limits hat hkey hfound =>
    rcases findByIdempotencyKey_spec hfound with ⟨_, _, hmissed⟩ | ⟨_, _, _, _, hsome⟩
    · refine .missed _ _ _ _ (by rw [hat]; rfl) rfl fun key' hsome => ?_
      cases hkey.symm.trans hsome
      exact hmissed
    · cases hsome
  | keyKnown found hit key req limits hat hkey hfound =>
    rcases findByIdempotencyKey_spec hfound with ⟨_, hnone, _⟩ | ⟨r, hr, _, hremembers, hsome⟩
    · cases hnone
    · cases hsome
      refine .found _ key r _ (by rw [hat]; rfl) hkey hr hremembers ?_
      split
      · exact Or.inl rfl
      · exact Or.inr rfl
  | admitted _ _ _ hat => exact .pending _ _ (by rw [hat]; rfl) (Or.inl rfl)
  | shed _ _ _ hat | insertFailed _ _ _ _ _ hat => exact .pending _ _ (by rw [hat]; rfl) (Or.inr ⟨_, rfl, rfl⟩)
  | inserted milliseconds random reply req limits new hat hnew hcommitted hfresh =>
    subst hnew
    refine .inserted _ _ _ (by rw [hat]; rfl) hfresh rfl ?_
    split
    · exact ⟨rfl, rfl⟩
    · exact ⟨rfl, rfl⟩
  | startsWaiting token hat => exact .late _ _ ⟨token, Or.inl hat⟩ (Or.inl ⟨_, rfl⟩)
  | notifyFailed token hat | created token hat => exact .late _ _ ⟨token, Or.inl hat⟩ (Or.inr ⟨_, rfl⟩)
  | waitFailed _ token hat | finished _ token hat | gone token hat =>
    exact .late _ _ ⟨token, Or.inr hat⟩ (Or.inr ⟨_, rfl⟩)

/-- A key is looked up only while no other request stands between its own lookup and its insert. The keys
that arrive are texts, nothing else inserts a row with a key, and a row that remembers its key does not
expire. -/
def LookupsApart (s : Creating) : CreateAction → Prop
  | .store (.fleet (.insert new)) => new.idempotencyKey = none
  | .store (.expireOldRows config) =>
    ∀ r ∈ s.store.rows, r.idempotencyKey ≠ none → s.store.now - idempotencyWindow < r.createdAt →
      r.finishedBefore s.store.now config.rowTtl = false
  | .store _ => True
  | .arrive _ header _ => ∀ value ∈ header, (headerText value).isSome = true
  | .advance i (.findKey _ _) =>
    ∀ c ∈ s.creations[i]?, ∀ other ∈ s.creations, other.phase.pending = true → other.key = c.key → c.key = none
  | .advance _ _ => True

instance (s : Creating) : DecidablePred (LookupsApart s)
  | .store (.fleet (.insert new)) => inferInstanceAs (Decidable (new.idempotencyKey = none))
  | .store (.expireOldRows config) =>
    inferInstanceAs (Decidable (∀ r ∈ s.store.rows, r.idempotencyKey ≠ none →
      s.store.now - idempotencyWindow < r.createdAt → r.finishedBefore s.store.now config.rowTtl = false))
  | .arrive _ header _ => inferInstanceAs (Decidable (∀ value ∈ header, (headerText value).isSome = true))
  | .advance i (.findKey _ _) =>
    inferInstanceAs (Decidable (∀ c ∈ s.creations[i]?, ∀ other ∈ s.creations, other.phase.pending = true →
      other.key = c.key → c.key = none))
  | .store (.fleet (.claim ..)) | .store (.fleet (.publishProcessing ..)) | .store (.fleet (.execute ..))
  | .store (.fleet (.writeResult ..)) | .store (.fleet (.writeSandboxFailure ..)) | .store (.fleet (.publishFinished ..))
  | .store (.fleet (.crash ..)) | .store (.fleet .sweep) | .store (.fleet (.tick ..)) | .store (.scrubPayloads _)
  | .advance _ .prepare | .advance _ (.checkCache _) | .advance _ .checkCallback | .advance _ (.checkLoad _)
  | .advance _ (.insert ..) | .advance _ (.notify _) | .advance _ (.wait ..) => isTrue trivial

/-- A request that was answered without an insert and without being turned away got the token of a request
with its key, which had inserted during the day before the lookup. -/
def Creation.Settled (creations : List Creation) (c : Creation) : Prop :=
  ∀ reply, c.phase = .answered reply → c.inserted = none → reply.turnedAway = false →
    ∃ now t token, c.lookedUpAt = some now ∧ (reply = .existing token ∨ reply = .idempotencyConflict token) ∧
      t ≤ now ∧ now < t + idempotencyWindow ∧
        ∃ first ∈ creations, first.key = c.key ∧ first.inserted = some (t, token)

/-- Not both requests have found that nobody has their key. -/
def Creation.Serial (a b : Creation) : Prop :=
  a.phase.pending = true → b.phase.pending = true → ∀ key, a.key = some key → b.key ≠ some key

/-- Two requests with one key have inserted with a day between them, if they both have. -/
def Creation.Apart (a b : Creation) : Prop :=
  ∀ key t token t' token', a.key = some key → b.key = some key → a.inserted = some (t, token) →
    b.inserted = some (t', token') → idempotencyWindow ≤ |t - t'|

/-- What holds of a single request. -/
structure Creation.Sound (now : ℚ) (c : Creation) : Prop where
  readable : ∀ value, c.header = some value → (headerText value).isSome = true
  past : ∀ t token, c.inserted = some (t, token) → t ≤ now
  fresh : c.phase.early = true ∨ c.phase.pending = true → c.inserted = none
  created : ∀ token, c.phase = .notifying token ∨ c.phase = .waiting token → c.inserted ≠ none

/-- The rows that remember a key and the requests that inserted them agree, and a request that has found
nobody with its key is alone with it until it inserts. -/
structure KeyInv (s : Creating) : Prop where
  sound : ∀ c ∈ s.creations, c.Sound s.store.now
  logged : ∀ r ∈ s.store.rows, ∀ key, r.idempotencyKey = some key →
    ∃ c ∈ s.creations, c.key = some key ∧ c.inserted = some (r.createdAt, r.token)
  kept : ∀ c ∈ s.creations, ∀ key t token, c.key = some key → c.inserted = some (t, token) →
    s.store.now - idempotencyWindow < t → ∃ r ∈ s.store.rows, r.idempotencyKey = some key ∧ r.createdAt = t
  missed : ∀ c ∈ s.creations, c.phase.pending = true → ∀ key, c.key = some key →
    ∀ r ∈ s.store.rows, remembers s.store.now key r = false
  alone : s.creations.Pairwise Creation.Serial
  apart : s.creations.Pairwise Creation.Apart
  settled : ∀ c ∈ s.creations, c.Settled s.creations

/-- Nothing has happened yet. -/
theorem KeyInv.init : KeyInv Creating.init where
  sound c hc := by cases hc
  logged r hr := by cases hr
  kept c hc := by cases hc
  missed c hc := by cases hc
  alone := List.Pairwise.nil
  apart := List.Pairwise.nil
  settled c hc := by cases hc

/-- Whether a row remembers a key shows in its identity. -/
theorem remembers_eq_of_identity {r r' : Row} (h : r'.identity = r.identity) (now : ℚ) (key : String) :
    remembers now key r' = remembers now key r := by
  unfold remembers
  rw [show r'.idempotencyKey = r.idempotencyKey from congrArg RowIdentity.idempotencyKey h,
    show r'.createdAt = r.createdAt from congrArg RowIdentity.createdAt h]

/-- A row that remembers a key carries it and is younger than a day. -/
theorem remembers_eq_true {now : ℚ} {key : String} {r : Row} :
    remembers now key r = true ↔ r.idempotencyKey = some key ∧ now - idempotencyWindow < r.createdAt := by
  simp [remembers]

/-- A row that does not remember a key will not do so later. -/
theorem remembers_eq_false_of_le {now later : ℚ} (hle : now ≤ later) {key : String} {r : Row}
    (h : remembers now key r = false) : remembers later key r = false := by
  rw [Bool.eq_false_iff] at h ⊢
  rw [Ne, remembers_eq_true] at h ⊢
  exact fun hlater => h ⟨hlater.1, (sub_le_sub_right hle _).trans_lt hlater.2⟩

/-- Of tables with the same identities each has the rows of the other, as far as these show. -/
theorem exists_of_map_identity {rows rows' : List Row} (h : rows'.map Row.identity = rows.map Row.identity) {r : Row}
    (hr : r ∈ rows) : ∃ r' ∈ rows', r'.identity = r.identity :=
  List.mem_map.mp (h ▸ List.mem_map_of_mem hr)

/-- Where rows with a key come from requests only, the rest of the system has every row with a key from before. -/
theorem exists_keyed_of_storeStep {s t : Fleet} {a : StoreAction}
    (hkeyless : ∀ new, a = .fleet (.insert new) → new.idempotencyKey = none) (hstep : storeStep s a = some t) {r' : Row}
    (hr' : r' ∈ t.rows) (hkey : r'.idempotencyKey ≠ none) : ∃ r ∈ s.rows, r.identity = r'.identity := by
  cases identityEffect_of_step hstep with
  | inserted new hfresh hnow hrows =>
    rw [hrows] at hr'
    rcases List.mem_append.mp hr' with hold | hnew
    · exact ⟨r', hold, rfl⟩
    · rw [List.mem_singleton.mp hnew] at hkey
      exact absurd (hkeyless new rfl) hkey
  | expired config hnow hrows =>
    rw [hrows] at hr'
    exact ⟨r', List.mem_of_mem_filter hr', rfl⟩
  | kept a hnow hrows => exact exists_of_map_identity hrows.symm hr'

/-- A request stays sound while time passes. -/
theorem Creation.Sound.later {now later : ℚ} {c : Creation} (h : c.Sound now) (hle : now ≤ later) : c.Sound later where
  readable := h.readable
  past t token hinserted := (h.past t token hinserted).trans hle
  fresh := h.fresh
  created := h.created

/-- The first relation is symmetric. -/
theorem Creation.Serial.symm {a b : Creation} (h : a.Serial b) : b.Serial a :=
  fun hb ha key hkey hkey' => h ha hb key hkey' hkey

/-- And so is the second. -/
theorem Creation.Apart.symm {a b : Creation} (h : a.Apart b) : b.Apart a := by
  intro key t token t' token' hb ha hinserted hinserted'
  rw [abs_sub_comm]
  exact h key t' token' t token ha hb hinserted' hinserted

/-- A request is as settled among other requests as far as their keys and inserts are the same. -/
theorem Creation.Settled.mono {creations creations' : List Creation} {c : Creation} (h : c.Settled creations)
    (hmono : ∀ key t token, (∃ first ∈ creations, first.key = key ∧ first.inserted = some (t, token)) →
      ∃ first ∈ creations', first.key = key ∧ first.inserted = some (t, token)) : c.Settled creations' := by
  intro reply hphase hnone hturned
  obtain ⟨now, t, token, hlooked, hreply, hle, hlt, hfirst⟩ := h reply hphase hnone hturned
  exact ⟨now, t, token, hlooked, hreply, hle, hlt, hmono _ _ _ hfirst⟩

/-- Rows with a key that are the old ones, of which none is lost before a day has passed, keep the
invariant. -/
theorem KeyInv.of_rows {s : Creating} {t : Fleet} (h : KeyInv s) (hnow : s.store.now ≤ t.now)
    (hback : ∀ r' ∈ t.rows, ∀ key, r'.idempotencyKey = some key → ∃ r ∈ s.store.rows, r.identity = r'.identity)
    (hforth : ∀ r ∈ s.store.rows, ∀ key, remembers t.now key r = true → ∃ r' ∈ t.rows, r'.identity = r.identity) :
    KeyInv { s with store := t } where
  sound c hc := (h.sound c hc).later hnow
  logged r' hr' key hkey := by
    obtain ⟨r, hr, hidentity⟩ := hback r' hr' key hkey
    obtain ⟨c, hc, hckey, hinserted⟩ := h.logged r hr key ((congrArg RowIdentity.idempotencyKey hidentity).trans hkey)
    have htime : r.createdAt = r'.createdAt := congrArg RowIdentity.createdAt hidentity
    have htoken : r.token = r'.token := congrArg RowIdentity.token hidentity
    exact ⟨c, hc, hckey, by rw [hinserted, htime, htoken]⟩
  kept c hc key time token hkey hinserted hyoung := by
    have hnow' : s.store.now - idempotencyWindow < time := (sub_le_sub_right hnow _).trans_lt hyoung
    obtain ⟨r, hr, hrkey, rfl⟩ := h.kept c hc key time token hkey hinserted hnow'
    obtain ⟨r', hr', hidentity⟩ := hforth r hr key (remembers_eq_true.mpr ⟨hrkey, hyoung⟩)
    exact ⟨r', hr', (congrArg RowIdentity.idempotencyKey hidentity).trans hrkey,
      congrArg RowIdentity.createdAt hidentity⟩
  missed c hc hpending key hkey r' hr' := by
    rw [Bool.eq_false_iff]
    intro hremembers
    obtain ⟨r, hr, hidentity⟩ := hback r' hr' key (remembers_eq_true.mp hremembers).1
    have hmissed := remembers_eq_false_of_le hnow (h.missed c hc hpending key hkey r hr)
    rw [← remembers_eq_of_identity hidentity, hmissed] at hremembers
    cases hremembers
  alone := h.alone
  apart := h.apart
  settled := h.settled

/-- A step of the rest of the system keeps the invariant. -/
theorem KeyInv.of_store {s : Creating} {t : Fleet} {a : StoreAction} (h : KeyInv s)
    (hallowed : LookupsApart s (.store a)) (hstep : storeStep s.store a = some t) :
    KeyInv { s with store := t } := by
  have hback (r' : Row) (hr' : r' ∈ t.rows) (key : String) (hkey : r'.idempotencyKey = some key) :
      ∃ r ∈ s.store.rows, r.identity = r'.identity := by
    refine exists_keyed_of_storeStep (fun new heq => ?_) hstep hr' (by simp [hkey])
    subst heq
    exact hallowed
  cases identityEffect_of_step hstep with
  | inserted new hfresh hnow hrows =>
    refine h.of_rows hnow.ge hback fun r hr _ _ => ⟨r, ?_, rfl⟩
    rw [hrows]
    exact List.mem_append_left _ hr
  | expired config hnow hrows =>
    refine h.of_rows hnow.ge hback fun r hr key hremembers => ⟨r, ?_, rfl⟩
    rw [hnow] at hremembers
    obtain ⟨hrkey, hyoung⟩ := remembers_eq_true.mp hremembers
    rw [hrows, expireOldRows, List.mem_filter, hallowed r hr (by simp [hrkey]) hyoung]
    exact ⟨hr, rfl⟩
  | kept a hnow hrows => exact h.of_rows hnow hback fun r hr _ _ => exists_of_map_identity hrows hr

/-- A request that arrives keeps the invariant. -/
theorem KeyInv.arrive {s : Creating} (h : KeyInv s) (posted : SubmissionRequest) {header : Option Bytes} (wait : Bool)
    (hreadable : ∀ value, header = some value → (headerText value).isSome = true) :
    KeyInv { s with creations := s.creations ++ [⟨posted, header, wait, .received, none, none⟩] } := by
  have old_or_new {c : Creation} (hc : c ∈ s.creations ++ [⟨posted, header, wait, .received, none, none⟩]) :
      c ∈ s.creations ∨ c = ⟨posted, header, wait, .received, none, none⟩ := by
    simpa using hc
  refine ⟨fun c hc => ?_, fun r hr key hkey => ?_, fun c hc key time token hkey hinserted hyoung => ?_,
    fun c hc hpending => ?_, ?_, ?_, fun c hc => ?_⟩
  · rcases old_or_new hc with hold | rfl
    · exact h.sound c hold
    · exact ⟨hreadable, nofun, fun _ => rfl, by simp⟩
  · obtain ⟨c, hc, hlogged⟩ := h.logged r hr key hkey
    exact ⟨c, List.mem_append_left _ hc, hlogged⟩
  · rcases old_or_new hc with hold | rfl
    · exact h.kept c hold key time token hkey hinserted hyoung
    · cases hinserted
  · rcases old_or_new hc with hold | rfl
    · exact h.missed c hold hpending
    · cases hpending
  · refine List.pairwise_append.mpr ⟨h.alone, List.pairwise_singleton _ _, fun a ha b hb _ hpending => ?_⟩
    rw [List.mem_singleton.mp hb] at hpending
    cases hpending
  · refine List.pairwise_append.mpr ⟨h.apart, List.pairwise_singleton _ _, fun a ha b hb => ?_⟩
    intro key time token time' token' _ _ _ hinserted
    rw [List.mem_singleton.mp hb] at hinserted
    cases hinserted
  · rcases old_or_new hc with hold | rfl
    · refine (h.settled c hold).mono fun key time token hfirst => ?_
      obtain ⟨first, hmem, hfirst⟩ := hfirst
      exact ⟨first, List.mem_append_left _ hmem, hfirst⟩
    · intro reply hphase
      cases hphase

/-- A request that moves on without an insert keeps the invariant, if it is alone with its key where it
finds itself alone. -/
theorem KeyInv.move {s : Creating} (h : KeyInv s) {i : ℕ} {c c' : Creation} (hc : s.creations[i]? = some c)
    (hheader : c'.header = c.header) (hinserted : c'.inserted = c.inserted) (hsound : c'.Sound s.store.now)
    (halone : c'.phase.pending = true → ∀ key, c.key = some key →
      (∀ r ∈ s.store.rows, remembers s.store.now key r = false) ∧
        ∀ j other, j ≠ i → s.creations[j]? = some other → other.phase.pending = true → other.key ≠ some key)
    (hsettled : c'.Settled s.creations) : KeyInv { s with creations := s.creations.set i c' } := by
  have hmem : c ∈ s.creations := List.mem_of_getElem? hc
  have hkey : c'.key = c.key := by rw [Creation.key, Creation.key, hheader]
  have first_set (key : Option String) (time : ℚ) (token : Token)
      (hfirst : ∃ first ∈ s.creations, first.key = key ∧ first.inserted = some (time, token)) :
      ∃ first ∈ s.creations.set i c', first.key = key ∧ first.inserted = some (time, token) :=
    exists_mem_set hc (fun hold => by rwa [hkey, hinserted]) hfirst
  refine ⟨forall_mem_set h.sound hsound i, fun r hr key hrkey => first_set _ _ _ (h.logged r hr key hrkey),
    forall_mem_set h.kept ?_ i, forall_mem_set h.missed ?_ i, ?_, ?_, ?_⟩
  · intro key time token hdkey hdinserted hyoung
    exact h.kept c hmem key time token (hkey ▸ hdkey) (hinserted ▸ hdinserted) hyoung
  · intro hpending key hdkey
    exact (halone hpending key (hkey ▸ hdkey)).1
  · refine pairwise_set (fun _ _ => Creation.Serial.symm) h.alone fun j other hne hj => ?_
    intro hpending hother key hckey
    exact (halone hpending key (hkey ▸ hckey)).2 j other hne hj hother
  · refine pairwise_set (fun _ _ => Creation.Apart.symm) h.apart fun j other hne hj => ?_
    have hold : c.Apart other := relation_of_pairwise (fun _ _ => Creation.Apart.symm) h.apart hc hj hne
    rwa [Creation.Apart, hkey, hinserted]
  · refine forall_mem_set (fun d hd => ?_) (hsettled.mono fun key time token => first_set key time token) i
    exact (h.settled d hd).mono fun key time token => first_set key time token

/-- When a request is about to insert, nobody has inserted with its key within a day. -/
theorem KeyInv.time_le_of_pending {s : Creating} (h : KeyInv s) {c other : Creation} (hc : c ∈ s.creations)
    (hpending : c.phase.pending = true) (hother : other ∈ s.creations) {key : String} {time : ℚ} {token : Token}
    (hckey : c.key = some key) (hokey : other.key = some key) (hinserted : other.inserted = some (time, token)) :
    time ≤ s.store.now - idempotencyWindow := by
  by_contra hyoung
  obtain ⟨r, hr, hrkey, rfl⟩ := h.kept other hother key time token hokey hinserted (not_le.mp hyoung)
  have hmissed := h.missed c hc hpending key hckey r hr
  rw [remembers_eq_true.mpr ⟨hrkey, not_le.mp hyoung⟩] at hmissed
  cases hmissed

/-- A request that has found itself alone with its key and inserts keeps the invariant. -/
theorem KeyInv.insert {s : Creating} (h : KeyInv s) {i : ℕ} {c : Creation} (hc : s.creations[i]? = some c)
    (hpending : c.phase.pending = true) {new : NewSubmission} (hnewkey : new.idempotencyKey = c.key)
    {phase : CreatePhase} (hphase : phase.early = false ∧ phase.pending = false) :
    KeyInv
      { store := { s.store with rows := s.store.rows ++ [new.row s.store.now] }
        creations := s.creations.set i { c with phase := phase, inserted := some (s.store.now, new.token) } } := by
  have hmem : c ∈ s.creations := List.mem_of_getElem? hc
  have hnone : c.inserted = none := (h.sound c hmem).fresh (Or.inr hpending)
  have first_set (key : Option String) (time : ℚ) (token : Token)
      (hfirst : ∃ first ∈ s.creations, first.key = key ∧ first.inserted = some (time, token)) :
      ∃ first ∈ s.creations.set i { c with phase := phase, inserted := some (s.store.now, new.token) },
        first.key = key ∧ first.inserted = some (time, token) :=
    exists_mem_set hc (fun hold => absurd (hnone.symm.trans hold.2) (by simp)) hfirst
  refine ⟨forall_mem_set h.sound ?_ i, fun r hr key hrkey => ?_,
    fun d hd key time token hdkey hdinserted hyoung => ?_, fun d hd hdpending key hdkey r hr => ?_, ?_, ?_,
    forall_mem_set (fun d hd => ?_) ?_ i⟩
  · refine ⟨(h.sound c hmem).readable, ?_, ?_, ?_⟩
    · rintro time token ⟨⟩
      exact le_refl _
    · simp [hphase.1, hphase.2]
    · simp
  · rcases List.mem_append.mp hr with hold | hnew
    · exact first_set _ _ _ (h.logged r hold key hrkey)
    · rw [List.mem_singleton.mp hnew] at hrkey ⊢
      have hlt : i < s.creations.length := (List.getElem?_eq_some_iff.mp hc).1
      exact ⟨_, List.mem_set hlt _, hnewkey.symm.trans hrkey, rfl⟩
  · rcases eq_or_exists_of_mem_set hd with rfl | ⟨j, _, hj⟩
    · cases hdinserted
      exact ⟨_, List.mem_append_right _ (List.mem_singleton_self _), hnewkey.trans hdkey, rfl⟩
    · obtain ⟨r, hr, hkept⟩ := h.kept d (List.mem_of_getElem? hj) key time token hdkey hdinserted hyoung
      exact ⟨r, List.mem_append_left _ hr, hkept⟩
  · rcases eq_or_exists_of_mem_set hd with rfl | ⟨j, hne, hj⟩
    · rw [hphase.2] at hdpending
      cases hdpending
    · rcases List.mem_append.mp hr with hold | hnew
      · exact h.missed d (List.mem_of_getElem? hj) hdpending key hdkey r hold
      · -- nobody else is about to insert with this key
        have hserial : c.Serial d := relation_of_pairwise (fun _ _ => Creation.Serial.symm) h.alone hc hj hne
        rw [List.mem_singleton.mp hnew, Bool.eq_false_iff]
        intro hremembers
        have hrkey : new.idempotencyKey = some key := (remembers_eq_true.mp hremembers).1
        exact hserial hpending hdpending key (hnewkey.symm.trans hrkey) hdkey
  · refine pairwise_set (fun _ _ => Creation.Serial.symm) h.alone fun j other _ _ hdpending => ?_
    rw [hphase.2] at hdpending
    cases hdpending
  · refine pairwise_set (fun _ _ => Creation.Apart.symm) h.apart fun j other _ hj => ?_
    intro key time token time' token' hckey hokey hinserted hinserted'
    cases hinserted
    have hold := h.time_le_of_pending hmem hpending (List.mem_of_getElem? hj) hckey hokey hinserted'
    have hdistance : idempotencyWindow ≤ s.store.now - time' := by linarith
    exact hdistance.trans (le_abs_self _)
  · exact (h.settled d hd).mono fun key time token => first_set key time token
  · intro reply _ hcontra
    cases hcontra

/-- A request that has not inserted may go anywhere but behind an insert. -/
theorem Creation.Sound.move {now : ℚ} {c : Creation} (h : c.Sound now) (hnone : c.inserted = none) {phase : CreatePhase}
    (hphase : phase.early = true ∨ phase.pending = true ∨ ∃ reply, phase = .answered reply) (lookedUpAt : Option ℚ) :
    ({ c with phase := phase, lookedUpAt := lookedUpAt } : Creation).Sound now where
  readable := h.readable
  past := h.past
  fresh _ := hnone
  created token hcreated := by
    rcases hcreated with rfl | rfl <;> simp [CreatePhase.early, CreatePhase.pending] at hphase

/-- A request that is not answered, or was turned away, needs no other. -/
theorem Creation.Settled.of_turnedAway {creations : List Creation} {c : Creation}
    (h : ∀ reply, c.phase = .answered reply → reply.turnedAway = true) : c.Settled creations := by
  intro reply hphase _ hturned
  rw [h reply hphase] at hturned
  cases hturned

/-- Turning a request away that has not inserted keeps the invariant. -/
theorem KeyInv.turnAway {s : Creating} (h : KeyInv s) {i : ℕ} {c : Creation} (hc : s.creations[i]? = some c)
    (hnone : c.inserted = none) {reply : CreateReply} (hturned : reply.turnedAway = true) :
    KeyInv { s with creations := s.creations.set i { c with phase := .answered reply } } := by
  have hsound := (h.sound c (List.mem_of_getElem? hc)).move hnone (Or.inr (Or.inr ⟨reply, rfl⟩)) c.lookedUpAt
  refine h.move hc rfl rfl hsound nofun (.of_turnedAway ?_)
  rintro _ ⟨⟩
  exact hturned

/-- A request that has not asked for its key, or has not inserted, is not answered. -/
theorem CreatePhase.not_answered {phase : CreatePhase} (h : phase.early = true ∨ phase.pending = true)
    (reply : CreateReply) : phase ≠ .answered reply := by
  rintro rfl
  simp [CreatePhase.early, CreatePhase.pending] at h

/-- A request is not both before its lookup and behind it. -/
theorem CreatePhase.not_pending {phase : CreatePhase} (h : phase.early = true) : phase.pending = false := by
  cases phase <;> first | rfl | cases h

/-- A step of a request keeps the invariant. -/
theorem KeyInv.advance {env : CreateEnv} {s : Creating} (h : KeyInv s) {i : ℕ} {c c' : Creation} {store : Fleet}
    {a : CreateStep} (hallowed : LookupsApart s (.advance i a)) (hc : s.creations[i]? = some c)
    (hstep : c.step env s.store a = some (store, c')) :
    KeyInv { store := store, creations := s.creations.set i c' } := by
  have hmem : c ∈ s.creations := List.mem_of_getElem? hc
  have hsound := h.sound c hmem
  cases Creation.effect_of_step hstep with
  | early a phase hearly hphase =>
    have hnone : c.inserted = none := hsound.fresh (Or.inl hearly)
    rcases hphase with hphase | ⟨reply, rfl, hturned⟩
    · refine h.move hc rfl rfl (hsound.move hnone (Or.inl hphase) c.lookedUpAt) (fun hpending => ?_) ?_
      · rw [CreatePhase.not_pending hphase] at hpending
        cases hpending
      · exact .of_turnedAway fun reply hreply => absurd hreply (CreatePhase.not_answered (Or.inl hphase) reply)
    · exact h.turnAway hc hnone hturned
  | found a key r reply hearly hkey hr hremembers hreply =>
    have hnone : c.inserted = none := hsound.fresh (Or.inl hearly)
    refine h.move hc rfl rfl (hsound.move hnone (Or.inr (Or.inr ⟨reply, rfl⟩)) (some s.store.now)) nofun ?_
    obtain ⟨hrkey, hyoung⟩ := remembers_eq_true.mp hremembers
    obtain ⟨first, hfirst, hfkey, hinserted⟩ := h.logged r hr key hrkey
    rintro _ ⟨⟩ _ _
    exact ⟨s.store.now, r.createdAt, r.token, rfl, hreply, (h.sound first hfirst).past _ _ hinserted,
      by linarith, first, hfirst, hfkey.trans hkey.symm, hinserted⟩
  | missed found ok phase lookedUpAt hearly hpending hmissed =>
    have hnone : c.inserted = none := hsound.fresh (Or.inl hearly)
    refine h.move hc rfl rfl (hsound.move hnone (Or.inr (Or.inl hpending)) lookedUpAt) (fun _ key hkey => ?_) ?_
    · refine ⟨hmissed key hkey, fun j other _ hj hother hokey => ?_⟩
      have hkeyless := hallowed c hc other (List.mem_of_getElem? hj) hother (hokey.trans hkey.symm)
      exact absurd (hkey.symm.trans hkeyless) (by simp)
    · exact .of_turnedAway fun reply hreply => absurd hreply (CreatePhase.not_answered (Or.inr hpending) reply)
  | pending a phase hpending hphase =>
    have hnone : c.inserted = none := hsound.fresh (Or.inr hpending)
    rcases hphase with hphase | ⟨reply, rfl, hturned⟩
    · refine h.move hc rfl rfl (hsound.move hnone (Or.inr (Or.inl hphase)) c.lookedUpAt) (fun _ key hkey => ?_) ?_
      · refine ⟨h.missed c hmem hpending key hkey, fun j other hne hj hother => ?_⟩
        have hserial : c.Serial other := relation_of_pairwise (fun _ _ => Creation.Serial.symm) h.alone hc hj hne
        exact hserial hpending hother key hkey
      · exact .of_turnedAway fun reply hreply => absurd hreply (CreatePhase.not_answered (Or.inr hphase) reply)
    · exact h.turnAway hc hnone hturned
  | inserted a new phase hpending hfresh hkey hphase => exact h.insert hc hpending hkey hphase
  | late a phase hlate hphase =>
    obtain ⟨token, hlate⟩ := hlate
    have hcreated : c.inserted ≠ none := hsound.created token hlate
    have hquiet : phase.early = false ∧ phase.pending = false := by
      rcases hphase with ⟨_, rfl⟩ | ⟨_, rfl⟩ <;> exact ⟨rfl, rfl⟩
    refine h.move hc rfl rfl ⟨hsound.readable, hsound.past, ?_, fun _ _ => hcreated⟩ (fun hpending => ?_) ?_
    · simp [hquiet.1, hquiet.2]
    · rw [hquiet.2] at hpending
      cases hpending
    · exact fun reply _ hnone => absurd hnone hcreated

/-- Every step keeps the invariant. -/
theorem KeyInv.of_step {env : CreateEnv} {s t : Creating} {a : CreateAction} (h : KeyInv s)
    (hallowed : LookupsApart s a) (hstep : s.step env a = some t) : KeyInv t := by
  cases a with
  | store a =>
    obtain ⟨store, hstore, rfl⟩ := Option.map_eq_some_iff.mp hstep
    exact h.of_store hallowed hstore
  | arrive posted header wait =>
    cases hstep
    exact h.arrive posted wait hallowed
  | advance i a =>
    obtain ⟨c, hc, hmoved⟩ := Option.bind_eq_some_iff.mp hstep
    obtain ⟨next, hnext, rfl⟩ := Option.map_eq_some_iff.mp hmoved
    exact h.advance hallowed hc hnext

/-- The steps of a request up to the lookup of its key. -/
def untilLookup (i : ℕ) (found : Option Token) : List CreateAction :=
  [.advance i .prepare, .advance i (.checkCache none), .advance i .checkCallback, .advance i (.findKey found true)]

/-- The steps of a request from there on. -/
def untilAnswer (i random : ℕ) : List CreateAction :=
  [.advance i (.checkLoad 0), .advance i (.insert 1 random .acknowledged), .advance i (.notify true)]

end ZeroCode.Api
