import ZeroCode.Api.Views
import ZeroCode.Worker.Identity

/-!
# The order of a batch

The handler of a batch inserts its test cases one after the other, each with the time of
its statement and a fresh token, and acknowledges the tokens in that order. A client pairs
them by index with the members of the batch, which come back ordered by time and, at one
time, by the text of the token. Tokens of one millisecond are random, so the two orders
agree exactly when no tie of the times is broken the other way.
-/

namespace ZeroCode.Api

open ZeroCode.Core ZeroCode.Foundation ZeroCode.Worker

/-- When a row was inserted, and its token. -/
def stamp (r : Row) : ℚ × Token := (r.createdAt, r.token)

/-- The order of the members of a batch, on their stamps. -/
def stampLe (a b : ℚ × Token) : Prop := a.1 < b.1 ∨ a.1 = b.1 ∧ a.2.text ≤ b.2.text

instance : DecidableRel stampLe := fun a b =>
  inferInstanceAs (Decidable (a.1 < b.1 ∨ a.1 = b.1 ∧ a.2.text ≤ b.2.text))

/-- Where two consecutive inserts have one time, the later token is the larger one. -/
def TiesAscend (stamps : List (ℚ × Token)) : Prop := stamps.IsChain fun a b => a.1 = b.1 → a.2 < b.2

/-- Of two stamps one comes first. -/
instance : Std.Total stampLe where
  total a b := by
    unfold stampLe
    rcases lt_trichotomy a.1 b.1 with hlt | heq | hgt
    · exact Or.inl (Or.inl hlt)
    · rcases le_total a.2.text b.2.text with hle | hge
      · exact Or.inl (Or.inr ⟨heq, hle⟩)
      · exact Or.inr (Or.inr ⟨heq.symm, hge⟩)
    · exact Or.inr (Or.inl hgt)

/-- The order of the stamps is transitive. -/
instance : IsTrans (ℚ × Token) stampLe where
  trans a b c hab hbc := by
    unfold stampLe at *
    rcases hab with hab | ⟨hab, htext⟩
    · rcases hbc with hbc | ⟨hbc, _⟩
      · exact Or.inl (hab.trans hbc)
      · exact Or.inl (hbc ▸ hab)
    · rcases hbc with hbc | ⟨hbc, htext'⟩
      · exact Or.inl (hab ▸ hbc)
      · exact Or.inr ⟨hab.trans hbc, htext.trans htext'⟩

/-- The stamps of a batch, in the order of the query. -/
theorem map_stamp_batchRows (rows : List Row) (batchId : String) :
    (batchRows rows batchId).map stamp =
      ((rows.filter fun r => r.batchId == some batchId).map stamp).insertionSort stampLe :=
  List.map_insertionSort Row.batchLe stampLe stamp _ fun _ _ _ _ => Iff.rfl

/-- Sorting a list with distinct tokens keeps the tokens in place only if it keeps the list. -/
theorem eq_of_map_snd_insertionSort {stamps : List (ℚ × Token)} (hnodup : (stamps.map Prod.snd).Nodup)
    (hsame : (stamps.insertionSort stampLe).map Prod.snd = stamps.map Prod.snd) :
    stamps.insertionSort stampLe = stamps := by
  have hlength : (stamps.insertionSort stampLe).length = stamps.length := List.length_insertionSort _ _
  refine List.ext_getElem hlength fun i hi hi' => ?_
  have hmem : (stamps.insertionSort stampLe)[i] ∈ stamps :=
    (List.mem_insertionSort stampLe).mp (List.getElem_mem hi)
  refine List.inj_on_of_nodup_map hnodup hmem (List.getElem_mem hi') ?_
  have htoken := congrArg (fun tokens => tokens[i]?) hsame
  simpa [hi, hi'] using htoken

/-- Stamps with 128-bit tokens compare like numbers where the times agree. -/
theorem stampLe_of_ne {a b : ℚ × Token} (ha : a.2 < 2 ^ 128) (hb : b.2 < 2 ^ 128) (htime : a.1 ≤ b.1)
    (hne : a.2 ≠ b.2) : stampLe a b ↔ (a.1 = b.1 → a.2 < b.2) := by
  have htext : a.2.text ≤ b.2.text ↔ a.2 < b.2 := by
    rw [← not_lt, Token.text_lt_iff hb ha, not_lt]
    exact ⟨fun h => lt_of_le_of_ne h hne, le_of_lt⟩
  unfold stampLe
  rw [htext]
  rcases lt_or_eq_of_le htime with hlt | heq
  · exact ⟨fun _ h => absurd h hlt.ne, fun _ => Or.inl hlt⟩
  · exact ⟨fun h _ => h.elim (fun hlt => absurd heq hlt.ne) And.right, fun h => Or.inr ⟨heq, h heq⟩⟩

/-- Stamps in the order of their times come back in that order exactly when every tie ascends. -/
theorem map_snd_insertionSort_iff {stamps : List (ℚ × Token)} (htimes : stamps.Pairwise fun a b => a.1 ≤ b.1)
    (hnodup : (stamps.map Prod.snd).Nodup) (hbits : ∀ a ∈ stamps, a.2 < 2 ^ 128) :
    (stamps.insertionSort stampLe).map Prod.snd = stamps.map Prod.snd ↔ TiesAscend stamps := by
  have hne : stamps.Pairwise fun a b => a.2 ≠ b.2 := List.pairwise_map.mp hnodup
  have hagree : stamps.IsChain stampLe ↔ TiesAscend stamps := by
    rw [TiesAscend, List.isChain_iff_getElem, List.isChain_iff_getElem]
    refine forall₂_congr fun i hi => ?_
    exact stampLe_of_ne (hbits _ (List.getElem_mem _)) (hbits _ (List.getElem_mem _))
      (List.pairwise_iff_getElem.mp htimes i (i + 1) _ hi (Nat.lt_succ_self i))
      (List.pairwise_iff_getElem.mp hne i (i + 1) _ hi (Nat.lt_succ_self i))
  rw [← hagree, List.isChain_iff_pairwise]
  constructor
  · intro hsame
    have hsorted : (stamps.insertionSort stampLe).Pairwise stampLe := List.pairwise_insertionSort stampLe stamps
    rwa [eq_of_map_snd_insertionSort hnodup hsame] at hsorted
  · intro hsorted
    rw [hsorted.insertionSort_eq]

/-- A batch that is being created: the test cases still to insert, and the stamps of the inserted ones. -/
structure Batching where
  store : Fleet
  remaining : List (Option Bytes)
  inserted : List (ℚ × Token)

/-- A step of the rest of the system, or the insert of the next test case with the clock and the
randomness of its token. -/
inductive BatchAction
  | store (a : StoreAction)
  | insertNext (milliseconds random : ℕ)
  deriving DecidableEq, Repr

section Run

variable (req : BatchRequest) (limits : ResourceLimits) (batchId : String)

/-- Nothing was inserted yet. -/
def Batching.init : Batching := ⟨Fleet.init, req.testCases, []⟩

/-- One step of the system while the batch is created. An insert that fails ends the request. -/
def Batching.step (s : Batching) : BatchAction → Option Batching
  | .store a => (storeStep s.store a).map fun store => { s with store := store }
  | .insertNext milliseconds random =>
    match s.remaining with
    | [] => none
    | stdin :: rest =>
      let token := Token.new milliseconds random
      (s.store.step (.insert (req.newSubmission limits batchId token stdin))).map fun store =>
        { store := store, remaining := rest, inserted := s.inserted ++ [(s.store.now, token)] }

/-- The rest of the system leaves the members of the batch alone: nobody else has its id, which is fresh,
and none of them has expired. -/
def KeepsBatch (s : Batching) : BatchAction → Prop
  | .store (.fleet (.insert new)) => new.batchId ≠ some batchId
  | .store (.fleet a) => Judged a
  | .store (.expireOldRows config) =>
    ∀ r ∈ s.store.rows, r.batchId = some batchId → r.finishedBefore s.store.now config.rowTtl = false
  | .store (.scrubPayloads _) | .insertNext _ _ => True

end Run

/-- The stamps of the members of a batch, in the order of the table. -/
def batchStamps (rows : List Row) (batchId : String) : List (ℚ × Token) :=
  (rows.filter fun r => r.batchId == some batchId).map stamp

/-- A batch's members are in the table as they were inserted, in the order of their times. -/
structure BatchInv (batchId : String) (s : Batching) : Prop where
  fleet : FleetInv s.store
  stamps : batchStamps s.store.rows batchId = s.inserted
  times : s.inserted.Pairwise fun a b => a.1 ≤ b.1
  past : ∀ a ∈ s.inserted, a.1 ≤ s.store.now
  bits : ∀ a ∈ s.inserted, a.2 < 2 ^ 128

/-- The stamps of a batch are read from the identities of the rows. -/
theorem batchStamps_eq (rows : List Row) (batchId : String) :
    batchStamps rows batchId =
      ((rows.map Row.identity).filter fun row => row.batchId == some batchId).map fun row => (row.createdAt, row.token) := by
  rw [List.filter_map, List.map_map]
  rfl

/-- Nobody has inserted anything. -/
theorem BatchInv.init (req : BatchRequest) (batchId : String) : BatchInv batchId (Batching.init req) where
  fleet := FleetInv.init
  stamps := rfl
  times := List.Pairwise.nil
  past a ha := by cases ha
  bits a ha := by cases ha

/-- An expiry that finds no member of the batch to delete keeps its stamps. -/
theorem batchStamps_expireOldRows {s : Fleet} {batchId : String} {config : RetentionConfig}
    (hkept : ∀ r ∈ s.rows, r.batchId = some batchId → r.finishedBefore s.now config.rowTtl = false) :
    batchStamps (expireOldRows s.rows s.now config) batchId = batchStamps s.rows batchId := by
  rw [batchStamps, batchStamps, expireOldRows, List.filter_filter]
  refine congrArg _ (List.filter_congr fun r hr => ?_)
  cases hmember : r.batchId == some batchId with
  | false => rfl
  | true => simp [hkept r hr (beq_iff_eq.mp hmember)]

/-- A step of the rest of the system keeps the stamps of the batch. -/
theorem batchStamps_of_store {s : Batching} {t : Fleet} {a : StoreAction} {batchId : String}
    (hkeeps : KeepsBatch batchId s (.store a)) (hstep : storeStep s.store a = some t) :
    s.store.now ≤ t.now ∧ batchStamps t.rows batchId = batchStamps s.store.rows batchId := by
  cases identityEffect_of_step hstep with
  | inserted new hfresh hnow hrows =>
    have hnew : (new.row s.store.now).batchId ≠ some batchId := hkeeps
    exact ⟨hnow.ge, by simp [hrows, batchStamps, hnew]⟩
  | expired config hnow hrows => exact ⟨hnow.ge, hrows ▸ batchStamps_expireOldRows hkeeps⟩
  | kept a hnow hrows => exact ⟨hnow, by rw [batchStamps_eq, batchStamps_eq, hrows]⟩

/-- What leaves the batch alone is judged. -/
theorem judged_of_keepsBatch {s : Batching} {a : FleetAction} {batchId : String}
    (hkeeps : KeepsBatch batchId s (.store (.fleet a))) : Judged a := by
  cases a with
  | insert new => exact trivial
  | claim | publishProcessing | execute | writeResult | writeSandboxFailure | publishFinished | crash | sweep
  | tick => exact hkeeps

/-- A step of the rest of the system keeps the invariant. -/
theorem BatchInv.of_store {s : Batching} {t : Fleet} {a : StoreAction} {batchId : String} (h : BatchInv batchId s)
    (hkeeps : KeepsBatch batchId s (.store a)) (hstep : storeStep s.store a = some t) :
    BatchInv batchId { s with store := t } where
  fleet := fleetInv_of_storeStep h.fleet (fun _ ha => judged_of_keepsBatch (ha ▸ hkeeps)) hstep
  stamps := (batchStamps_of_store hkeeps hstep).2.trans h.stamps
  times := h.times
  past a ha := (h.past a ha).trans (batchStamps_of_store hkeeps hstep).1
  bits := h.bits

/-- The insert of a test case adds its stamp at the end. -/
theorem BatchInv.of_insertNext {s : Batching} {t : Fleet} {new : NewSubmission} {batchId : String}
    {rest : List (Option Bytes)} (h : BatchInv batchId s) (hbatch : new.batchId = some batchId)
    (hbits : new.token < 2 ^ 128) (hstep : s.store.step (.insert new) = some t) :
    BatchInv batchId ⟨t, rest, s.inserted ++ [(s.store.now, new.token)]⟩ := by
  have hjudged : Judged (.insert new) := trivial
  have hfleet : FleetInv t := h.fleet.of_step hjudged hstep
  have hnow : s.store.now ≤ t.now := now_le_of_step hstep
  refine ⟨hfleet, ?_, ?_, ?_, ?_⟩
  · cases Fleet.effect_of_step hstep with
    | insert new hfresh =>
      have hnew : (new.row s.store.now).batchId = some batchId := hbatch
      have hlast : [new.row s.store.now].filter (fun r => r.batchId == some batchId) = [new.row s.store.now] :=
        List.filter_eq_self.mpr fun r hr => by rw [List.mem_singleton.mp hr, hnew, beq_self_eq_true]
      rw [batchStamps, List.filter_append, hlast, List.map_append, ← batchStamps, h.stamps]
      rfl
  · refine List.pairwise_append.mpr ⟨h.times, List.pairwise_singleton _ _, fun a ha b hb => ?_⟩
    rw [List.mem_singleton.mp hb]
    exact h.past a ha
  · exact forall_mem_concat (fun a ha => (h.past a ha).trans hnow) hnow
  · exact forall_mem_concat h.bits hbits

/-- Every step keeps the invariant. -/
theorem BatchInv.of_step {req : BatchRequest} {limits : ResourceLimits} {batchId : String} {s t : Batching}
    {a : BatchAction} (h : BatchInv batchId s) (hkeeps : KeepsBatch batchId s a)
    (hstep : Batching.step req limits batchId s a = some t) : BatchInv batchId t := by
  cases a with
  | store a =>
    obtain ⟨store, hstore, rfl⟩ := Option.map_eq_some_iff.mp hstep
    exact h.of_store hkeeps hstore
  | insertNext milliseconds random =>
    simp only [Batching.step] at hstep
    split at hstep
    · cases hstep
    · obtain ⟨store, hstore, rfl⟩ := Option.map_eq_some_iff.mp hstep
      exact h.of_insertNext rfl (Token.new_lt milliseconds random) hstore

/-- The members of a batch can all be read, and come with the tokens of their rows. -/
theorem exists_listBatch {s : Fleet} (h : FleetInv s) (batchId : String) :
    ∃ items, listBatch s.rows batchId = .ok items ∧
      items.map Submission.token = ((batchStamps s.rows batchId).insertionSort stampLe).map Prod.snd := by
  have htokens : (batchRows s.rows batchId).map Row.token =
      ((batchStamps s.rows batchId).insertionSort stampLe).map Prod.snd := by
    rw [batchStamps, ← map_stamp_batchRows, List.map_map]
    rfl
  rw [← htokens]
  refine exists_items_of_rows fun r hr => ?_
  exact (h.rows r (List.mem_of_mem_filter ((List.mem_insertionSort _).mp hr))).parses

/-- The item which the client shows for a token: the one at the index of the token. -/
def applyView (tokens : List Token) (items : List Submission) (token : Token) : Option Submission :=
  (tokens.idxOf? token).bind fun i => items[i]?

/-- Every token is shown with its own item exactly when the items come in the order of the tokens. -/
theorem applyView_iff {tokens : List Token} {items : List Submission} (hnodup : tokens.Nodup)
    (hlength : items.length = tokens.length) :
    (∀ token ∈ tokens, (applyView tokens items token).map Submission.token = some token) ↔
      items.map Submission.token = tokens := by
  have hitem (i : ℕ) (hi : i < tokens.length) :
      (applyView tokens items tokens[i]).map Submission.token = (items.map Submission.token)[i]? := by
    have hindex : tokens.idxOf? tokens[i] = some i := by
      refine List.idxOf?_eq_some_iff.mpr ⟨hi, rfl, fun j hj heq => ?_⟩
      exact hj.ne ((hnodup.getElem_inj_iff).mp heq)
    rw [applyView, hindex, Option.bind_some, List.getElem?_map]
  constructor
  · intro hpaired
    refine List.ext_getElem? fun i => ?_
    by_cases hi : i < tokens.length
    · rw [← hitem i hi, hpaired _ (List.getElem_mem hi), List.getElem?_eq_getElem hi]
    · rw [List.getElem?_eq_none (by simpa [hlength] using hi), List.getElem?_eq_none (by simpa using hi)]
  · intro hsame token htoken
    obtain ⟨i, hi, rfl⟩ := List.getElem_of_mem htoken
    rw [hitem i hi, hsame, List.getElem?_eq_getElem hi]

/-- In every state of a batch that is left alone its members can be read. They come in the order in which
the handler inserted and acknowledged them, and then every acknowledged token is shown with its own item,
exactly when of two consecutive inserts of one time the later has the larger token. -/
theorem batch_keeps_order_iff {req : BatchRequest} {limits : ResourceLimits} {batchId : String} {s : Batching}
    (reached : Reaches (Batching.step req limits batchId) (KeepsBatch batchId) (Batching.init req) s) :
    ∃ items, listBatch s.store.rows batchId = .ok items ∧
      (items.map Submission.token = s.inserted.map Prod.snd ↔ TiesAscend s.inserted) ∧
        ((∀ token ∈ s.inserted.map Prod.snd,
          (applyView (s.inserted.map Prod.snd) items token).map Submission.token = some token) ↔
            TiesAscend s.inserted) := by
  have h : BatchInv batchId s :=
    reached.invariant (BatchInv batchId) (BatchInv.init req batchId) fun s a t hinv hkeeps hstep =>
      hinv.of_step hkeeps hstep
  obtain ⟨items, hitems, htokens⟩ := exists_listBatch h.fleet batchId
  have hnodup : (s.inserted.map Prod.snd).Nodup := by
    rw [← h.stamps, batchStamps, List.map_map]
    exact h.fleet.tokens.sublist (List.filter_sublist.map Row.token)
  have hlength : items.length = (s.inserted.map Prod.snd).length := by
    have hcount := congrArg List.length htokens
    simpa [h.stamps] using hcount
  have horder : items.map Submission.token = s.inserted.map Prod.snd ↔ TiesAscend s.inserted := by
    rw [htokens, h.stamps]
    exact map_snd_insertionSort_iff h.times hnodup h.bits
  exact ⟨items, hitems, horder, (applyView_iff hnodup hlength).trans horder⟩

/-- A batch of two test cases. -/
def pythonBatch : BatchRequest where
  languageId := 71
  sourceCode := [112, 97, 115, 115]
  testCases := [some [49], some [50]]
  cpuTimeLimit := none
  wallTimeLimit := none
  memoryLimitMb := none
  base64Encoded := false

/-- The batch after it was inserted in one go, with tokens from the given clock and randomness. -/
def insertedBatch (drawn : List (ℕ × ℕ)) : Batching :=
  lastState (Batching.step pythonBatch .default "b") (Batching.init pythonBatch)
    (drawn.map fun d => .insertNext d.1 d.2)

/-- Nobody touches the batch while it is inserted in one go. -/
theorem reaches_insertedBatch (drawn : List (ℕ × ℕ))
    (hsome : (runActions (Batching.step pythonBatch .default "b") (Batching.init pythonBatch)
      (drawn.map fun d => .insertNext d.1 d.2)).isSome = true) :
    Reaches (Batching.step pythonBatch .default "b") (KeepsBatch "b") (Batching.init pythonBatch)
      (insertedBatch drawn) := by
  have meets : ∀ a ∈ drawn.map fun d => BatchAction.insertNext d.1 d.2,
      ∃ milliseconds random, a = .insertNext milliseconds random := by
    intro a ha
    obtain ⟨d, _, rfl⟩ := List.mem_map.mp ha
    exact ⟨d.1, d.2, rfl⟩
  refine (Reaches.of_runActions_forall _ meets (runActions_eq_lastState hsome)).mono fun s a hinsert => ?_
  obtain ⟨milliseconds, random, rfl⟩ := hinsert
  exact trivial

/-- Two test cases inserted at one time, with ascending tokens. -/
theorem batch_keeps_order_iff_ascending :
    pythonBatch.prepare pythonState = .ok (pythonBatch, .default) ∧
    TiesAscend (insertedBatch [(1, 3), (1, 5)]).inserted ∧
    ∃ items, listBatch (insertedBatch [(1, 3), (1, 5)]).store.rows "b" = .ok items ∧
      (items.map Submission.token = (insertedBatch [(1, 3), (1, 5)]).inserted.map Prod.snd ↔
        TiesAscend (insertedBatch [(1, 3), (1, 5)]).inserted) ∧
        ((∀ token ∈ (insertedBatch [(1, 3), (1, 5)]).inserted.map Prod.snd,
          (applyView ((insertedBatch [(1, 3), (1, 5)]).inserted.map Prod.snd) items token).map Submission.token =
            some token) ↔
            TiesAscend (insertedBatch [(1, 3), (1, 5)]).inserted) := by
  refine ⟨by decide +kernel, ?_, batch_keeps_order_iff (reaches_insertedBatch _ ?_)⟩
  · unfold TiesAscend
    decide +kernel
  · decide +kernel

/-- Two test cases inserted in one millisecond and at one time come back in the other order. -/
theorem batch_order_swapped :
    ¬ ∀ (req : BatchRequest) (limits : ResourceLimits) (batchId : String) (s : Batching),
      Reaches (Batching.step req limits batchId) (KeepsBatch batchId) (Batching.init req) s →
        ∃ items, listBatch s.store.rows batchId = .ok items ∧
          items.map Submission.token = s.inserted.map Prod.snd := by
  intro hclaim
  obtain ⟨items, hitems, htokens⟩ :=
    hclaim pythonBatch .default "b" _ (reaches_insertedBatch [(1, 5), (1, 3)] (by decide +kernel))
  have hswapped : (listBatch (insertedBatch [(1, 5), (1, 3)]).store.rows "b").map (List.map Submission.token) =
      .ok [Token.new 1 3, Token.new 1 5] := by decide +kernel
  have hinserted : (insertedBatch [(1, 5), (1, 3)]).inserted.map Prod.snd = [Token.new 1 5, Token.new 1 3] := by
    decide +kernel
  rw [hitems] at hswapped
  have hsame := (Except.ok.inj hswapped).symm.trans (htokens.trans hinserted)
  revert hsame
  decide +kernel

end ZeroCode.Api
