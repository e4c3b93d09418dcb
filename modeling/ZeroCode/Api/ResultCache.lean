import ZeroCode.Api.CacheTransparency
import ZeroCode.Api.CachedView
import ZeroCode.Api.WaitForCompletion
import ZeroCode.Worker.Request

/-!
# The result cache over whole runs

Requests come and go, workers write, the retention blanks rows, and one cache remembers
results. A handler that waited keeps what it read of its row if that is a judgement. The
row may change under the handler at any time before and after, but nobody changes what was
requested, so that what is kept is the result of the job the handler holds the key of.
-/

namespace ZeroCode.Api

open ZeroCode.Cache ZeroCode.Core ZeroCode.Foundation ZeroCode.Sandbox ZeroCode.Worker

/-- A request, with what its handler is about to put into the cache. -/
structure Caller where
  creation : Creation
  populating : Option Submission
  deriving DecidableEq, Repr

/-- The table, the requests in the order of their arrival, and the cache. An entry is given as the submission it
was copied from. -/
structure Caching (Digest : Type*) where
  store : Fleet
  callers : List Caller
  cache : Digest → Option Submission

/-- A step of the rest of the system, the arrival of a request, a step of a handler, or the loss of an entry. A
wait ends for whatever reason; `ok` is whether its last read succeeded. -/
inductive CachingAction (Digest : Type*)
  | store (a : StoreAction)
  | arrive (posted : SubmissionRequest) (header : Option Bytes) (wait : Bool)
  | advance (i : ℕ) (a : CreateStep)
  | checkCache (i : ℕ)
  | endWait (i : ℕ) (ok : Bool)
  | populate (i : ℕ)
  | evict (key : Digest)

/-- The key a handler has computed for its request, once the request is checked. -/
def Creation.cacheKey {Digest : Type*} (env : CreateEnv) (blake3 : Bytes → Digest) (toBits : ℚ → UInt64) (c : Creation) :
    Option Digest :=
  match c.posted.prepare env.api with
  | .ok (req, limits) => some (req.resultKey blake3 toBits limits)
  | .error _ => none

/-- What an entry holds. -/
def Caching.entry {Digest : Type*} (s : Caching Digest) (key : Digest) : Option CachedOutcome :=
  (s.cache key).map CachedOutcome.of

/-- A handler takes a step of its own. -/
def Caching.move {Digest : Type*} (env : CreateEnv) (s : Caching Digest) (i : ℕ) (caller : Caller) (a : CreateStep) :
    Option (Caching Digest) :=
  (caller.creation.step env s.store a).map fun next =>
    { s with store := next.1, callers := s.callers.set i { caller with creation := next.2 } }

/-- One step of the system. -/
def Caching.step {Digest : Type*} [DecidableEq Digest] (env : CreateEnv) (blake3 : Bytes → Digest)
    (toBits : ℚ → UInt64) (s : Caching Digest) : CachingAction Digest → Option (Caching Digest)
  | .store a => (storeStep s.store a).map fun store => { s with store := store }
  | .arrive posted header wait => some { s with callers := s.callers ++ [⟨.arrived posted header wait, none⟩] }
  | .advance i a =>
    s.callers[i]?.bind fun caller =>
      match a with
      | .checkCache _ | .wait _ _ => none
      | .prepare | .checkCallback | .findKey _ _ | .checkLoad _ | .insert _ _ _ | .notify _ => s.move env i caller a
  | .checkCache i =>
    s.callers[i]?.bind fun caller =>
      match caller.creation.phase with
      | .checkingCache req limits => s.move env i caller (.checkCache (s.cache (req.resultKey blake3 toBits limits)))
      | _ => none
  | .endWait i ok =>
    s.callers[i]?.bind fun caller =>
      match caller.creation.phase, caller.populating with
      | .waiting token, none =>
        match ok, fetchSubmission s.store.rows token with
        | true, .ok (some sub) =>
          if sub.isDone && sub.status.isVerdict then
            some { s with callers := s.callers.set i { caller with populating := some sub } }
          else s.move env i caller (.wait true (some sub))
        | true, .ok none => s.move env i caller (.wait true none)
        | true, .error _ | false, _ => s.move env i caller (.wait false none)
      | _, _ => none
  | .populate i =>
    s.callers[i]?.bind fun caller =>
      match caller.populating, caller.creation.cacheKey env blake3 toBits with
      | some sub, some key =>
        { s with cache := Function.update s.cache key (some sub) }.move env i { caller with populating := none }
          (.wait true (some sub))
      | _, _ => none
  | .evict key => some { s with cache := Function.update s.cache key none }

/-- No request and nothing in the cache. -/
def Caching.init {Digest : Type*} : Caching Digest := ⟨Fleet.init, [], fun _ => none⟩

/-- The last read of a wait comes before the retention may touch the row. -/
def KeepsPayload {Digest : Type*} (patience : ℚ) (s : Caching Digest) : CachingAction Digest → Prop
  | .store a => KeptFor patience a
  | .endWait i _ => ∀ caller ∈ s.callers[i]?, ∀ created ∈ caller.creation.inserted, s.store.now ≤ created.1 + patience
  | _ => True

instance {Digest : Type*} (patience : ℚ) (s : Caching Digest) (a : CachingAction Digest) :
    Decidable (KeepsPayload patience s a) :=
  match a with
  | .store a => inferInstanceAs (Decidable (KeptFor patience a))
  | .endWait i _ =>
    inferInstanceAs (Decidable (∀ caller ∈ s.callers[i]?, ∀ created ∈ caller.creation.inserted,
      s.store.now ≤ created.1 + patience))
  | .arrive _ _ _ | .advance _ _ | .checkCache _ | .populate _ | .evict _ => isTrue trivial

section

variable {Digest : Type*} {env : CreateEnv} {blake3 : Bytes → Digest} {toBits : ℚ → UInt64}
  {patience : ℚ}

/-- How far a caller got, and what it relies on. -/
inductive Caller.Sound (env : CreateEnv) (blake3 : Bytes → Digest) (toBits : ℚ → UInt64) (patience : ℚ)
    (sourced : Digest → Submission → Prop) (store : Fleet) (caller : Caller) : Prop
  | before (hphase : caller.creation.phase.beforeInsert = true) (hinserted : caller.creation.inserted = none)
    (hidle : caller.populating = none)
    (hchecked : ∀ checked, caller.creation.phase.checked = some checked →
      caller.creation.posted.prepare env.api = .ok checked)
    (hcached : ∀ sub, caller.creation.phase = .answered (.cached sub) → ∃ req limits,
      caller.creation.posted.prepare env.api = .ok (req, limits) ∧ sourced (req.resultKey blake3 toBits limits) sub)
  | behind (hphase : caller.creation.phase.behindInsert = true) (req : SubmissionRequest) (limits : ResourceLimits)
    (created : ℚ) (token : Token) (hprepared : caller.creation.posted.prepare env.api = .ok (req, limits))
    (hinserted : caller.creation.inserted = some (created, token))
    (htoken : ∀ t, caller.creation.phase.token = some t → t = token) (hpast : created ≤ store.now)
    (hkept : store.now ≤ created + patience →
      ∃ r ∈ store.rows, r.Holds (req.newSubmission limits token none []) created)
    (hpopulating : ∀ sub, caller.populating = some sub → sourced (req.resultKey blake3 toBits limits) sub)

/-- What a caller relies on may become weaker. -/
theorem Caller.Sound.mono {sourced sourced' : Digest → Submission → Prop} {store : Fleet} {caller : Caller}
    (h : caller.Sound env blake3 toBits patience sourced store) (himp : ∀ key sub, sourced key sub → sourced' key sub) :
    caller.Sound env blake3 toBits patience sourced' store := by
  cases h with
  | before hphase hinserted hidle hchecked hcached =>
    refine .before hphase hinserted hidle hchecked fun sub hsub => ?_
    obtain ⟨req, limits, hprepared, hsourced⟩ := hcached sub hsub
    exact ⟨req, limits, hprepared, himp _ _ hsourced⟩
  | behind hphase req limits created token hprepared hinserted htoken hpast hkept hpopulating =>
    exact .behind hphase req limits created token hprepared hinserted htoken hpast hkept fun sub hsub =>
      himp _ _ (hpopulating sub hsub)

/-- What the rest of the system does leaves the row of a caller its request. -/
theorem Caller.Sound.of_store {sourced : Digest → Submission → Prop} {store store' : Fleet} {caller : Caller}
    {a : StoreAction} (h : caller.Sound env blake3 toBits patience sourced store) (hkeeps : KeptFor patience a)
    (hstep : storeStep store a = some store') : caller.Sound env blake3 toBits patience sourced store' := by
  cases h with
  | before hphase hinserted hidle hchecked hcached => exact .before hphase hinserted hidle hchecked hcached
  | behind hphase req limits created token hprepared hinserted htoken hpast hkept hpopulating =>
    have hnow : store.now ≤ store'.now := by
      cases identityEffect_of_step hstep with
      | inserted new hfresh hnow hrows => exact le_of_eq hnow.symm
      | expired config hnow hrows => exact le_of_eq hnow.symm
      | kept a hnow hrows => exact hnow
    refine .behind hphase req limits created token hprepared hinserted htoken (hpast.trans hnow) (fun htime => ?_)
      hpopulating
    have hearlier : store.now ≤ created + patience := hnow.trans htime
    obtain ⟨r, hr, hholds⟩ := hkept hearlier
    exact hholds.of_step hr hpast hearlier hkeeps hstep

/-- A step of a handler leaves the table alone or inserts a row. -/
theorem Creation.store_of_step {store store' : Fleet} {c c' : Creation} {a : CreateStep}
    (hstep : c.step env store a = some (store', c')) :
    store' = store ∨ ∃ new, storeStep store (.fleet (.insert new)) = some store' := by
  cases Creation.move_of_step hstep with
  | inserted milliseconds random reply req limits new hat hnew hcommitted hfresh =>
    exact Or.inr ⟨new, Fleet.step_insert hfresh⟩
  | prepared | refused | cacheHit | cacheMiss | callbackAllowed | callbackRefused | keyless | keyUnknown | keyKnown
  | lookupFailed | shed | admitted | insertFailed | notifyFailed | startsWaiting | created | waitFailed | finished
  | gone => exact Or.inl rfl

/-- A step of its handler keeps a caller sound. -/
theorem Caller.Sound.advance {sourced : Digest → Submission → Prop} {store store' : Fleet} {caller : Caller}
    {c' : Creation} {a : CreateStep} {populating : Option Submission}
    (h : caller.Sound env blake3 toBits patience sourced store)
    (hpopulating : populating = none ∨ populating = caller.populating)
    (hhit : ∀ sub req limits, a = .checkCache (some sub) → caller.creation.phase = .checkingCache req limits →
      sourced (req.resultKey blake3 toBits limits) sub)
    (hstep : caller.creation.step env store a = some (store', c')) :
    Caller.Sound env blake3 toBits patience sourced store' ⟨c', populating⟩ := by
  cases h with
  | before hphase hinserted hidle hchecked hcached =>
    have hidle' : populating = none := by
      rcases hpopulating with hnone | hsame
      · exact hnone
      · exact hsame.trans hidle
    cases Creation.earlyMove_of_step hphase hchecked hstep with
    | still phase lookedUpAt hstore hc hphase' hchecked' hcached' =>
      subst hstore hc
      refine .before hphase' hinserted hidle' hchecked' fun sub hsub => ?_
      obtain ⟨ha, req, limits, hat, hprepared⟩ := hcached' sub hsub
      exact ⟨req, limits, hprepared, hhit sub req limits ha hat⟩
    | inserted phase req limits token hprepared hstore hc hphase' htoken =>
      subst hstore hc
      refine .behind hphase' req limits store.now token hprepared rfl htoken (le_refl _) (fun _ => ?_) fun sub hsub => ?_
      · refine ⟨_, List.mem_append_right _ (List.mem_singleton_self _), rfl, fun finishedAt hfinished => ?_⟩
        cases hfinished
      · cases hidle'.symm.trans hsub
  | behind hphase req limits created token hprepared hinserted htoken hpast hkept hpopulates =>
    obtain ⟨rfl, phase, rfl, hphase', hcarries⟩ := Creation.lateMove_of_step hphase hstep
    refine .behind hphase' req limits created token hprepared hinserted (fun t ht => htoken t (hcarries t ht)) hpast
      hkept fun sub hsub => ?_
    rcases hpopulating with hnone | hsame
    · cases hnone.symm.trans hsub
    · exact hpopulates sub (hsame.symm.trans hsub)

/-- A step of its handler leaves a caller its request and the row it inserted. -/
theorem Caller.Sound.keeps {sourced : Digest → Submission → Prop} {store store' : Fleet} {caller : Caller}
    {c' : Creation} {a : CreateStep} (h : caller.Sound env blake3 toBits patience sourced store)
    (hstep : caller.creation.step env store a = some (store', c')) :
    c'.posted = caller.creation.posted ∧
      ∀ created, caller.creation.inserted = some created → c'.inserted = some created := by
  cases h with
  | before hphase hinserted hidle hchecked hcached =>
    have hnothing (created : ℚ × Token) (hsome : caller.creation.inserted = some created) : False := by
      cases hinserted.symm.trans hsome
    cases Creation.earlyMove_of_step hphase hchecked hstep with
    | still phase lookedUpAt hstore hc hphase' hchecked' hcached' =>
      subst hc
      exact ⟨rfl, fun created hsome => (hnothing created hsome).elim⟩
    | inserted phase req limits token hprepared hstore hc hphase' htoken =>
      subst hc
      exact ⟨rfl, fun created hsome => (hnothing created hsome).elim⟩
  | behind hphase req limits created token hprepared hinserted htoken hpast hkept hpopulates =>
    obtain ⟨_, phase, rfl, _, _⟩ := Creation.lateMove_of_step hphase hstep
    exact ⟨rfl, fun created hsome => hsome⟩

variable [DecidableEq Digest]

/-- The submission was read, earlier in the run, from the terminal row that a request had inserted. By then the row
still held the job of the request, and the key is that of this job under the limits resolved for it. -/
inductive Sourced (env : CreateEnv) (blake3 : Bytes → Digest) (toBits : ℚ → UInt64) (patience : ℚ) (s : Caching Digest)
    (key : Digest) (sub : Submission) : Prop
  | copied (past : Caching Digest) (r : Row) (caller : Caller) (created : ℚ) (req : SubmissionRequest)
    (limits : ResourceLimits) (hreached : Reaches (Caching.step env blake3 toBits) (KeepsPayload patience) .init past)
    (hlater : Reaches (Caching.step env blake3 toBits) (KeepsPayload patience) past s) (hr : r ∈ past.store.rows)
    (hterminal : r.status.isTerminal = true) (hread : readRow r = .ok sub) (hverdict : sub.status.isVerdict = true)
    (hcaller : caller ∈ s.callers) (hprepared : caller.creation.posted.prepare env.api = .ok (req, limits))
    (hinserted : caller.creation.inserted = some (created, r.token))
    (hrequest : r.request = ((req.newSubmission limits r.token none []).row created).request)
    (hkey : key = CacheKey.result blake3 toBits r.languageId r.sourceCode (r.stdin.getD []) limits)

/-- What was read once was read once ever after. -/
theorem Sourced.of_step {s t : Caching Digest} {key : Digest} {sub : Submission} {a : CachingAction Digest}
    (h : Sourced env blake3 toBits patience s key sub) (hallowed : KeepsPayload patience s a)
    (hstep : s.step env blake3 toBits a = some t)
    (hkept : ∀ caller ∈ s.callers, ∀ created, caller.creation.inserted = some created → ∃ caller' ∈ t.callers,
      caller'.creation.posted = caller.creation.posted ∧ caller'.creation.inserted = some created) :
    Sourced env blake3 toBits patience t key sub := by
  cases h with
  | copied past r caller created req limits hreached hlater hr hterminal hread hverdict hcaller hprepared hinserted
      hrequest hkey =>
    obtain ⟨caller', hcaller', hposted, hinserted'⟩ := hkept caller hcaller _ hinserted
    exact .copied past r caller' created req limits hreached (.tail hlater hallowed hstep) hr hterminal hread hverdict
      hcaller' (by rw [hposted, hprepared]) hinserted' hrequest hkey

/-- The entries of the cache and what the handlers are about to put there have been read from the rows of their
jobs, and the rows the handlers wait for hold their requests. -/
structure CacheInv (env : CreateEnv) (blake3 : Bytes → Digest) (toBits : ℚ → UInt64) (patience : ℚ)
    (s : Caching Digest) : Prop where
  reached : Reaches (Caching.step env blake3 toBits) (KeepsPayload patience) .init s
  tokens : (s.store.rows.map Row.token).Nodup
  callers : ∀ caller ∈ s.callers, caller.Sound env blake3 toBits patience (Sourced env blake3 toBits patience s) s.store
  entries : ∀ key sub, s.cache key = some sub → Sourced env blake3 toBits patience s key sub

/-- Nothing has happened yet. -/
theorem CacheInv.init : CacheInv env blake3 toBits patience Caching.init where
  reached := .refl
  tokens := List.nodup_nil
  callers caller hcaller := by cases hcaller
  entries key sub hsub := by cases hsub

/-- It is enough to look at what the step changed. -/
theorem CacheInv.next {s t : Caching Digest} {a : CachingAction Digest} (h : CacheInv env blake3 toBits patience s)
    (hallowed : KeepsPayload patience s a) (hstep : s.step env blake3 toBits a = some t)
    (htokens : (t.store.rows.map Row.token).Nodup)
    (hkept : ∀ caller ∈ s.callers, ∀ created, caller.creation.inserted = some created → ∃ caller' ∈ t.callers,
      caller'.creation.posted = caller.creation.posted ∧ caller'.creation.inserted = some created)
    (hcallers : ∀ caller ∈ t.callers,
      caller.Sound env blake3 toBits patience (Sourced env blake3 toBits patience s) t.store)
    (hentries : ∀ key sub, t.cache key = some sub → Sourced env blake3 toBits patience s key sub) :
    CacheInv env blake3 toBits patience t where
  reached := .tail h.reached hallowed hstep
  tokens := htokens
  callers caller hcaller := (hcallers caller hcaller).mono fun _ _ hsourced => hsourced.of_step hallowed hstep hkept
  entries key sub hsub := (hentries key sub hsub).of_step hallowed hstep hkept

/-- A step of a handler keeps the invariant, whatever it put into the cache just before. -/
theorem CacheInv.move {s t : Caching Digest} {action : CachingAction Digest} {a : CreateStep} {i : ℕ}
    {old caller : Caller} {cache : Digest → Option Submission} (h : CacheInv env blake3 toBits patience s)
    (hallowed : KeepsPayload patience s action) (hstep : s.step env blake3 toBits action = some t)
    (hi : s.callers[i]? = some old) (hcreation : caller.creation = old.creation)
    (hpopulating : caller.populating = none ∨ caller.populating = old.populating)
    (hcache : ∀ key sub, cache key = some sub → Sourced env blake3 toBits patience s key sub)
    (hhit : ∀ sub req limits, a = .checkCache (some sub) → old.creation.phase = .checkingCache req limits →
      Sourced env blake3 toBits patience s (req.resultKey blake3 toBits limits) sub)
    (hmove : { s with cache := cache }.move env i caller a = some t) : CacheInv env blake3 toBits patience t := by
  obtain ⟨⟨store', c'⟩, hnext, rfl⟩ := Option.map_eq_some_iff.mp hmove
  rw [hcreation] at hnext
  have hsound := h.callers old (List.mem_of_getElem? hi)
  refine h.next hallowed hstep ?_ ?_ ?_ hcache
  · rcases Creation.store_of_step hnext with rfl | ⟨new, hinsert⟩
    · exact h.tokens
    · have hfleet : s.store.step (.insert new) = some store' := hinsert
      exact Fleet.nodup_tokens_of_step hfleet h.tokens
  · intro other hother created hcreated
    refine exists_mem_set hi (fun hold => ?_) ⟨other, hother, rfl, hcreated⟩
    obtain ⟨hposted, hinserted⟩ := hsound.keeps hnext
    exact ⟨hposted.trans hold.1, hinserted created hold.2⟩
  · refine forall_mem_set (fun other hother => ?_) (hsound.advance hpopulating hhit hnext) i
    have hother' := h.callers other hother
    rcases Creation.store_of_step hnext with rfl | ⟨new, hinsert⟩
    · exact hother'
    · have hkeeps : KeptFor patience (.fleet (.insert new)) := trivial
      exact hother'.of_store hkeeps hinsert

/-- What a handler reads of a finished row, while the retention leaves it alone, is the result of the job it holds
the key of. -/
theorem Caller.Sound.sourced_of_fetch {s : Caching Digest} {caller : Caller} {token : Token} {sub : Submission}
    (h : CacheInv env blake3 toBits patience s) (hcaller : caller ∈ s.callers)
    (hwaiting : caller.creation.phase = .waiting token)
    (hnow : ∀ created ∈ caller.creation.inserted, s.store.now ≤ created.1 + patience)
    (hfetch : fetchSubmission s.store.rows token = .ok (some sub)) (hdone : sub.isDone = true)
    (hverdict : sub.status.isVerdict = true) :
    Caller.Sound env blake3 toBits patience (Sourced env blake3 toBits patience s) s.store
      { caller with populating := some sub } := by
  cases h.callers caller hcaller with
  | before hphase hinserted hidle hchecked hcached =>
    rw [hwaiting] at hphase
    cases hphase
  | behind hphase req limits created token' hprepared hinserted htoken hpast hkept hpopulating =>
    have hsame : token = token' := htoken token (by rw [hwaiting]; rfl)
    subst hsame
    obtain ⟨r, hr, hholds⟩ := hkept (hnow (created, token) hinserted)
    have hrtoken : r.token = token := congrArg (fun request => request.1.token) hholds.request
    have hread : readRow r = .ok sub := by
      rw [fetchSubmission_eq] at hfetch
      split at hfetch
      · cases hfetch
      · rename_i found hfound
        have hftoken : found.token = token := by simpa using List.find?_some hfound
        have hfr : found = r :=
          eq_of_key_eq h.tokens (List.mem_of_find?_eq_some hfound) hr (hftoken.trans hrtoken.symm)
        subst hfr
        cases hrow : readRow found with
        | error e =>
          rw [hrow] at hfetch
          cases hfetch
        | ok sub' =>
          rw [hrow] at hfetch
          cases hfetch
          rfl
    have hterminal : r.status.isTerminal = true := by
      rw [← isDone_of_fetchSubmission h.tokens hfetch hr hrtoken, hdone]
    refine .behind hphase req limits created token hprepared hinserted htoken hpast hkept fun sub' hsub => ?_
    cases hsub
    refine .copied s r caller created req limits h.reached .refl hr hterminal hread hverdict hcaller hprepared ?_ ?_ ?_
    · rw [hinserted, hrtoken]
    · rw [hrtoken]
      exact hholds.request
    · have hlanguage : r.languageId = req.languageId := congrArg (fun request => request.1.languageId) hholds.request
      have hsource : r.sourceCode = req.sourceCode := congrArg (fun request => request.2.1) hholds.request
      have hstdin : r.stdin = req.stdin := congrArg (fun request => request.2.2) hholds.request
      rw [hlanguage, hsource, hstdin]
      rfl

/-- The tokens of the table stay unique, whatever the retention does. -/
theorem nodup_tokens_of_storeStep {s t : Fleet} {a : StoreAction} (hstep : storeStep s a = some t)
    (hunique : (s.rows.map Row.token).Nodup) : (t.rows.map Row.token).Nodup := by
  cases a with
  | fleet a => exact Fleet.nodup_tokens_of_step hstep hunique
  | scrubPayloads config =>
    cases hstep
    exact (tokens_scrubPayloads s.rows s.now config).symm ▸ hunique
  | expireOldRows config =>
    cases hstep
    exact hunique.sublist (List.filter_sublist.map Row.token)

/-- The end of a wait keeps the invariant: what is to be kept was read from the row of the caller. -/
theorem CacheInv.endWait {s t : Caching Digest} {i : ℕ} {ok : Bool} (h : CacheInv env blake3 toBits patience s)
    (hallowed : KeepsPayload patience s (.endWait i ok)) (hstep : s.step env blake3 toBits (.endWait i ok) = some t) :
    CacheInv env blake3 toBits patience t := by
  obtain ⟨caller, hi, hmoved⟩ := Option.bind_eq_some_iff.mp hstep
  have hmem := List.mem_of_getElem? hi
  have answered {ok : Bool} {sub : Option Submission} (hmoved : s.move env i caller (.wait ok sub) = some t) :
      CacheInv env blake3 toBits patience t :=
    h.move hallowed hstep hi rfl (Or.inr rfl) h.entries (fun _ _ _ ha => by cases ha) hmoved
  split at hmoved
  · rename_i token hphase hidle
    split at hmoved
    · rename_i sub hfetch
      split at hmoved
      · rename_i hjudged
        obtain ⟨hdone, hverdict⟩ := Bool.and_eq_true_iff.mp hjudged
        cases hmoved
        have hnew := Caller.Sound.sourced_of_fetch h hmem hphase (hallowed caller hi) hfetch hdone hverdict
        refine h.next hallowed hstep h.tokens ?_ (forall_mem_set h.callers hnew i) h.entries
        intro other hother created hcreated
        exact exists_mem_set hi (fun hold => hold) ⟨other, hother, rfl, hcreated⟩
      · exact answered hmoved
    · exact answered hmoved
    · exact answered hmoved
    · exact answered hmoved
  · cases hmoved

/-- Keeping a judgement keeps the invariant: the new entry was read before. -/
theorem CacheInv.populate {s t : Caching Digest} {i : ℕ} (h : CacheInv env blake3 toBits patience s)
    (hallowed : KeepsPayload patience s (.populate i)) (hstep : s.step env blake3 toBits (.populate i) = some t) :
    CacheInv env blake3 toBits patience t := by
  obtain ⟨caller, hi, hmoved⟩ := Option.bind_eq_some_iff.mp hstep
  split at hmoved
  · rename_i sub key hpopulating hkey
    have hsourced : Sourced env blake3 toBits patience s key sub := by
      cases h.callers caller (List.mem_of_getElem? hi) with
      | before hphase hinserted hidle hchecked hcached => cases hidle.symm.trans hpopulating
      | behind hphase req limits created token hprepared hinserted htoken hpast hkept hpopulates =>
        rw [Creation.cacheKey, hprepared] at hkey
        cases hkey
        exact hpopulates sub hpopulating
    have hsame : ({ caller with populating := none } : Caller).creation = caller.creation := rfl
    refine h.move hallowed hstep hi hsame (Or.inl rfl) (fun key' sub' hsub => ?_)
      (fun _ _ _ (ha : CreateStep.wait true (some sub) = _) => by cases ha) hmoved
    by_cases hsame : key' = key
    · subst hsame
      rw [Function.update_self] at hsub
      cases hsub
      exact hsourced
    · rw [Function.update_of_ne hsame] at hsub
      exact h.entries key' sub' hsub
  · cases hmoved

/-- Every step keeps the invariant. -/
theorem CacheInv.of_step {s t : Caching Digest} {a : CachingAction Digest} (h : CacheInv env blake3 toBits patience s)
    (hallowed : KeepsPayload patience s a) (hstep : s.step env blake3 toBits a = some t) :
    CacheInv env blake3 toBits patience t := by
  have hhere := hstep
  cases a with
  | store a =>
    obtain ⟨store, hstore, rfl⟩ := Option.map_eq_some_iff.mp hstep
    refine h.next hallowed hhere (nodup_tokens_of_storeStep hstore h.tokens) ?_ ?_ h.entries
    · exact fun caller hcaller created hcreated => ⟨caller, hcaller, rfl, hcreated⟩
    · exact fun caller hcaller => (h.callers caller hcaller).of_store hallowed hstore
  | arrive posted header wait =>
    cases hstep
    refine h.next hallowed hhere h.tokens ?_ ?_ h.entries
    · exact fun caller hcaller created hcreated => ⟨caller, List.mem_append_left _ hcaller, rfl, hcreated⟩
    · refine forall_mem_concat h.callers (.before rfl rfl rfl (fun checked hchecked => ?_) fun sub hsub => ?_)
      · change none = some checked at hchecked
        cases hchecked
      · cases hsub
  | advance i a =>
    obtain ⟨caller, hi, hmoved⟩ := Option.bind_eq_some_iff.mp hstep
    have hmove : s.move env i caller a = some t ∧ ∀ sub, a ≠ .checkCache (some sub) := by
      cases a with
      | checkCache | wait => cases hmoved
      | prepare | checkCallback | findKey | checkLoad | insert | notify => exact ⟨hmoved, fun _ h => by cases h⟩
    exact h.move hallowed hhere hi rfl (Or.inr rfl) h.entries (fun sub _ _ ha => absurd ha (hmove.2 sub)) hmove.1
  | checkCache i =>
    obtain ⟨caller, hi, hmoved⟩ := Option.bind_eq_some_iff.mp hstep
    split at hmoved
    · rename_i req limits hphase
      refine h.move hallowed hhere hi rfl (Or.inr rfl) h.entries (fun sub req' limits' ha hphase' => ?_) hmoved
      cases hphase.symm.trans hphase'
      exact h.entries _ sub (CreateStep.checkCache.inj ha)
    · cases hmoved
  | endWait i ok => exact h.endWait hallowed hstep
  | populate i => exact h.populate hallowed hstep
  | evict key =>
    cases hstep
    refine h.next hallowed hhere h.tokens (fun caller hcaller created hcreated => ⟨caller, hcaller, rfl, hcreated⟩)
      h.callers fun key' sub hsub => ?_
    by_cases hsame : key' = key
    · subst hsame
      change Function.update s.cache key' none key' = some sub at hsub
      rw [Function.update_self] at hsub
      cases hsub
    · change Function.update s.cache key none key' = some sub at hsub
      rw [Function.update_of_ne hsame] at hsub
      exact h.entries key' sub hsub

/-- A submission answers a request that hit the cache: it is a judgement, read from the terminal row of a request
for the same program with the same input under the same limits. -/
inductive Justified (env : CreateEnv) (blake3 : Bytes → Digest) (toBits : ℚ → UInt64) (patience : ℚ)
    (s : Caching Digest) (c : Creation) (sub : Submission) : Prop
  | hit (req : SubmissionRequest) (limits : ResourceLimits) (hprepared : c.posted.prepare env.api = .ok (req, limits))
    (past : Caching Digest) (r : Row) (source : Caller) (created : ℚ) (req' : SubmissionRequest)
    (limits' : ResourceLimits) (hreached : Reaches (Caching.step env blake3 toBits) (KeepsPayload patience) .init past)
    (hlater : Reaches (Caching.step env blake3 toBits) (KeepsPayload patience) past s) (hr : r ∈ past.store.rows)
    (hterminal : r.status.isTerminal = true) (hread : readRow r = .ok sub) (hverdict : sub.status.isVerdict = true)
    (hsource : source ∈ s.callers) (hinserted : source.creation.inserted = some (created, r.token))
    (hresolved : source.creation.posted.prepare env.api = .ok (req', limits'))
    (hjob : (r.languageId, r.sourceCode, r.stdin.getD []) = (req.languageId, req.sourceCode, req.stdin.getD []))
    (hlimits : limitPatterns toBits limits' = limitPatterns toBits limits)

/-- What has been hashed for a result key. -/
def Caching.hashed (env : CreateEnv) (toBits : ℚ → UInt64) (s : Caching Digest) : Set Bytes :=
  {input | ∃ caller ∈ s.callers, ∃ req limits, caller.creation.posted.prepare env.api = .ok (req, limits) ∧
    input = resultKeyInput req.languageId req.sourceCode (req.stdin.getD []) (limitPatterns toBits limits)}

/-- The fields of the key of a checked request fit their widths. -/
theorem exists_keyFields {posted req : SubmissionRequest} {limits : ResourceLimits}
    (hids : ∀ spec ∈ env.api.languages, spec.id < 2 ^ 32) (h : posted.prepare env.api = .ok (req, limits))
    (toBits : ℚ → UInt64) :
    ∃ fields : ResultKeyFields, fields.languageId.toNat = req.languageId ∧ fields.source.1 = req.sourceCode ∧
      fields.stdin.1 = req.stdin.getD [] ∧ fields.limits = limitPatterns toBits limits := by
  obtain ⟨hid, hlength, hstdin⟩ := SubmissionRequest.fits_of_prepare hids h
  have hlength' : (req.stdin.getD []).length < 2 ^ 64 := by
    cases hinput : req.stdin with
    | none => norm_num
    | some bytes => exact hstdin bytes hinput
  exact ⟨⟨UInt32.ofNat req.languageId, ⟨req.sourceCode, hlength⟩, ⟨req.stdin.getD [], hlength'⟩,
    limitPatterns toBits limits⟩, UInt32.toNat_ofNat_of_lt' hid, rfl, rfl, rfl⟩

/-- What was read for a key answers every request with that key. -/
theorem Sourced.justified {s : Caching Digest} {key : Digest} {sub : Submission}
    (h : Sourced env blake3 toBits patience s key sub) (hids : ∀ spec ∈ env.api.languages, spec.id < 2 ^ 32)
    (hcollision : Set.InjOn blake3 (s.hashed env toBits)) {caller : Caller} (hcaller : caller ∈ s.callers)
    {req : SubmissionRequest} {limits : ResourceLimits}
    (hprepared : caller.creation.posted.prepare env.api = .ok (req, limits))
    (hkey : key = req.resultKey blake3 toBits limits) : Justified env blake3 toBits patience s caller.creation sub := by
  cases h with
  | copied past r source created req' limits' hreached hlater hr hterminal hread hverdict hsource hresolved hinserted
      hrequest hkey' =>
    have hlanguage : r.languageId = req'.languageId := congrArg (fun request => request.1.languageId) hrequest
    have hprogram : r.sourceCode = req'.sourceCode := congrArg (fun request => request.2.1) hrequest
    have hstdin : r.stdin = req'.stdin := congrArg (fun request => request.2.2) hrequest
    have hinput : resultKeyInput req'.languageId req'.sourceCode (req'.stdin.getD []) (limitPatterns toBits limits') =
        resultKeyInput req.languageId req.sourceCode (req.stdin.getD []) (limitPatterns toBits limits) := by
      refine hcollision ⟨source, hsource, req', limits', hresolved, rfl⟩ ⟨caller, hcaller, req, limits, hprepared, rfl⟩ ?_
      rw [hkey, hlanguage, hprogram, hstdin] at hkey'
      exact hkey'.symm
    obtain ⟨asked, hid, hbytes, hread₁, hpatterns⟩ := exists_keyFields hids hprepared toBits
    obtain ⟨run, hid', hbytes', hread₂, hpatterns'⟩ := exists_keyFields hids hresolved toBits
    have hfields : run = asked := by
      refine ResultKeyFields.input_injective ?_
      unfold ResultKeyFields.input
      rw [hid, hbytes, hread₁, hpatterns, hid', hbytes', hread₂, hpatterns', hinput]
    subst hfields
    refine .hit req limits hprepared past r source created req' limits' hreached hlater hr hterminal hread hverdict
      hsource hinserted hresolved ?_ (hpatterns'.symm.trans hpatterns)
    rw [hlanguage, hprogram, hstdin, ← hid, ← hid', ← hbytes, ← hbytes', ← hread₁, ← hread₂]

/-- Along every run in which the payloads outlast the waits, an entry of the cache is a judgement that was read from
the terminal row of a request whose job hashes to its key; and a request that is answered from the cache is told, as
is the case, that it gets a judgement of its own job, unless two jobs of the run collide. -/
theorem cache_holds_verdicts {s : Caching Digest}
    (reached : Reaches (Caching.step env blake3 toBits) (KeepsPayload patience) .init s)
    (hids : ∀ spec ∈ env.api.languages, spec.id < 2 ^ 32) (hcollision : Set.InjOn blake3 (s.hashed env toBits)) :
    (∀ key outcome, s.entry key = some outcome → ∃ sub, outcome = CachedOutcome.of sub ∧
      Sourced env blake3 toBits patience s key sub) ∧
      ∀ caller ∈ s.callers, ∀ sub, caller.creation.phase = .answered (.cached sub) →
        (CachedSubmissionView.of (CachedOutcome.of sub)).verdict = sub.status.isVerdict ∧
          Justified env blake3 toBits patience s caller.creation sub := by
  have h : CacheInv env blake3 toBits patience s :=
    reached.invariant (CacheInv env blake3 toBits patience) CacheInv.init fun s a t hinv hallowed hstep =>
      hinv.of_step hallowed hstep
  constructor
  · intro key outcome hentry
    obtain ⟨sub, hsub, rfl⟩ := Option.map_eq_some_iff.mp hentry
    exact ⟨sub, rfl, h.entries key sub hsub⟩
  · intro caller hcaller sub hphase
    cases h.callers caller hcaller with
    | before hbefore hinserted hidle hchecked hcached =>
      obtain ⟨req, limits, hprepared, hsourced⟩ := hcached sub hphase
      have hjustified := hsourced.justified hids hcollision hcaller hprepared rfl
      refine ⟨?_, hjustified⟩
      cases hsourced with
      | copied past r source created req' limits' hreached hlater hr hterminal hread hverdict => exact hverdict.symm
    | behind hbehind =>
      rw [hphase] at hbehind
      cases hbehind

end

/-- The bit patterns of the default time limits. -/
def defaultBits (x : ℚ) : UInt64 := if x = 2 then 0x4000000000000000 else if x = 5 then 0x4014000000000000 else 0

/-- A program is judged for a client that waits, and the next request for it hits the cache. -/
def repeatedRun : List (CachingAction Bytes) :=
  [.arrive pythonRequest none true, .advance 0 .prepare, .checkCache 0, .advance 0 .checkCallback,
    .advance 0 (.findKey none true), .advance 0 (.checkLoad 0), .advance 0 (.insert 1 5 .acknowledged),
    .advance 0 (.notify true), .store (.fleet (.claim "w" [] (Token.new 1 5) .acknowledged)),
    .store (.fleet (.publishProcessing 0 true)), .store (.fleet (.execute 0 (some acceptedResult))),
    .store (.fleet (.writeResult 0 .acknowledged)), .endWait 0 true, .populate 0,
    .arrive pythonRequest none true, .advance 1 .prepare, .checkCache 1]

/-- The system after that run. -/
def repeatedCaching : Caching Bytes :=
  lastState (checkedStep (Caching.step pythonEnv id defaultBits) (KeepsPayload waitTimeout)) .init repeatedRun

/-- What the second request gets. -/
def repeatedSubmission : Submission := { passedSubmission with token := Token.new 1 5 }

/-- The second request is told that it gets a judgement of its program, and it does. -/
theorem cache_holds_verdicts_repeated :
    (repeatedCaching.callers.map fun caller => caller.creation.phase) =
        [.answered (.finished repeatedSubmission), .answered (.cached repeatedSubmission)] ∧
      ∃ caller ∈ repeatedCaching.callers,
        (CachedSubmissionView.of (CachedOutcome.of repeatedSubmission)).verdict = true ∧
          Justified pythonEnv id defaultBits waitTimeout repeatedCaching caller.creation repeatedSubmission := by
  have hreached : Reaches (Caching.step pythonEnv id defaultBits) (KeepsPayload waitTimeout) .init repeatedCaching :=
    .of_runActions repeatedRun (runActions_eq_lastState (by decide +kernel))
  have hphases : (repeatedCaching.callers.map fun caller => caller.creation.phase) =
      [.answered (.finished repeatedSubmission), .answered (.cached repeatedSubmission)] := by decide +kernel
  obtain ⟨_, hhits⟩ := cache_holds_verdicts hreached (by decide) (Set.injOn_id _)
  have hmem : CreatePhase.answered (.cached repeatedSubmission) ∈
      repeatedCaching.callers.map fun caller => caller.creation.phase := by
    rw [hphases]
    exact List.mem_cons_of_mem _ (List.mem_singleton_self _)
  obtain ⟨caller, hcaller, hphase⟩ := List.mem_map.mp hmem
  exact ⟨hphases, caller, hcaller, hhits caller hcaller repeatedSubmission hphase⟩

end ZeroCode.Api
