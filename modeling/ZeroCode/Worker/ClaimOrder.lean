import ZeroCode.Api.Listing
import ZeroCode.Foundation.Potential

/-!
# The order of the claims

A claim takes one of the oldest rows among those that are queued and not locked by another
statement. While a row waits, a younger one is claimed before it only at a moment when
another statement has it locked. So where it is never found locked, the claims before its
own are paid for by the rows that were ahead of it, those that were inserted at the very
time it was, and those that the sweeper put back ahead of it.
-/

namespace ZeroCode.Worker

open ZeroCode.Api ZeroCode.Core ZeroCode.Foundation ZeroCode.Sandbox

/-- The row is queued, and no younger than the given one. -/
def Row.aheadOf (waiting r : Row) : Bool :=
  r.status == .queued && decide (r.createdAt ≤ waiting.createdAt) && r.token != waiting.token

/-- How many rows are ahead of the given one. -/
def ahead (waiting : Row) (s : Fleet) : ℕ := s.rows.countP waiting.aheadOf

/-- A claim that took effect. -/
def served (_ : Fleet) : StoreAction → ℕ
  | .fleet (.claim _ _ _ reply) => if reply.committed then 1 else 0
  | _ => 0

/-- The rows that a step puts ahead of the given one. -/
def joined (waiting : Row) (s : Fleet) : StoreAction → ℕ
  | .fleet (.insert _) => if s.now ≤ waiting.createdAt then 1 else 0
  | .fleet .sweep => s.rows.countP fun r => r.stale s.now && decide (r.createdAt ≤ waiting.createdAt)
  | _ => 0

/-- The row is in the queue, and the step neither claims it nor finds it locked. -/
def WaitsUnlocked (waiting : Row) (s : Fleet) (a : StoreAction) : Prop :=
  (∃ r ∈ s.rows, r.token = waiting.token ∧ r.createdAt = waiting.createdAt ∧ r.status = .queued) ∧ JudgedStore a ∧
    match a with
    | .fleet (.claim _ locked token _) => waiting.token ∉ locked ∧ token ≠ waiting.token
    | _ => True

/-- The claimed row is no younger than any that could have been claimed. -/
theorem oldest_of_claimNext {rows rows' : List Row} {now : ℚ} {workerId : String} {locked : List Token} {token : Token}
    {job : ClaimedJob} (h : claimNext rows now workerId locked token = some (rows', job)) :
    ∃ next ∈ rows, next.token = token ∧ next.status = .queued ∧
      (∀ r ∈ rows, r.free locked = true → next.createdAt ≤ r.createdAt) ∧
      rows' = updateWhere (fun r => r.token == token) (Row.claim now workerId) rows := by
  unfold claimNext at h
  split at h
  · cases h
  · rename_i next hfind
    split at h
    · rename_i hall
      cases h
      have hfree := List.find?_some hfind
      simp only [Row.free, Bool.and_eq_true, beq_iff_eq] at hfree
      refine ⟨next, List.mem_of_find?_eq_some hfind, hfree.1, hfree.2.1, fun r hr hrfree => ?_, rfl⟩
      simpa [hrfree] using List.all_eq_true.mp hall r hr
    · cases h

/-- What has left the queue is not ahead. -/
theorem Row.aheadOf_of_not_queued {waiting r : Row} (h : r.status ≠ .queued) : waiting.aheadOf r = false := by
  simp [Row.aheadOf, h]

/-- A claim of another row takes one from ahead of a row it could have claimed. -/
theorem ahead_claim {waiting : Row} {s : Fleet} {rows : List Row} {workerId : String} {locked : List Token} {token : Token}
    {job : ClaimedJob} (hwaits : ∃ r ∈ s.rows, r.token = waiting.token ∧ r.createdAt = waiting.createdAt ∧ r.status = .queued)
    (hunlocked : waiting.token ∉ locked) (hother : token ≠ waiting.token)
    (h : claimNext s.rows s.now workerId locked token = some (rows, job)) :
    rows.countP waiting.aheadOf < s.rows.countP waiting.aheadOf := by
  obtain ⟨next, hnext, rfl, hqueued, holdest, rfl⟩ := oldest_of_claimNext h
  obtain ⟨r, hr, htoken, hcreated, hrqueued⟩ := hwaits
  have hfree : r.free locked = true := by simp [Row.free, hrqueued, htoken, hunlocked]
  have hbefore : next.createdAt ≤ waiting.createdAt := hcreated ▸ holdest r hr hfree
  have hclaimed : ∀ r, (Row.claim s.now workerId r).status ≠ .queued := by
    intro r
    simp [Row.claim]
  refine countP_updateWhere_lt (fun r _ _ => Row.aheadOf_of_not_queued (hclaimed r)) hnext (by simp) ?_
  simp [Row.aheadOf, hqueued, hbefore, hother]

/-- A row that has its result is out of the queue. -/
theorem ahead_writeResult {waiting : Row} {rows : List Row} {now : ℚ} {token : Token} {result : SandboxResult}
    (hterminal : (encodeStatus result.status).1.isTerminal = true) :
    (writeResult rows now token result).countP waiting.aheadOf ≤ rows.countP waiting.aheadOf := by
  refine countP_updateWhere_le_of_forall fun r _ _ => Row.aheadOf_of_not_queued fun hqueued => ?_
  rw [show (encodeStatus result.status).1 = .queued from hqueued] at hterminal
  cases hterminal

/-- A row that failed is out of the queue. -/
theorem ahead_writeSandboxFailure {waiting : Row} {rows : List Row} {now : ℚ} {token : Token} {elapsed : ℚ} :
    (writeSandboxFailure rows now token elapsed).countP waiting.aheadOf ≤ rows.countP waiting.aheadOf :=
  countP_updateWhere_le_of_forall fun _ _ _ => Row.aheadOf_of_not_queued (by simp)

/-- Every step of the workers and the API pays for its claim. -/
theorem ahead_fleetStep {waiting : Row} {s t : Fleet} {a : FleetAction} (hinv : FleetInv s)
    (hallowed : WaitsUnlocked waiting s (.fleet a)) (hstep : s.step a = some t) :
    ahead waiting t + served s (.fleet a) ≤ ahead waiting s + joined waiting s (.fleet a) := by
  cases a with
  | claim workerId locked token reply =>
    obtain ⟨hwaits, -, hunlocked, hother⟩ := hallowed
    simp only [Fleet.step] at hstep
    split at hstep
    · cases hstep
    · rename_i rows job hclaim
      have hfewer := ahead_claim hwaits hunlocked hother hclaim
      cases reply with
      | acknowledged =>
        cases hstep
        exact hfewer
      | lost =>
        cases hstep
        exact hfewer
      | failed =>
        cases hstep
        exact le_refl _
  | insert new =>
    cases Fleet.effect_of_step hstep with
    | insert new hfresh =>
      simp only [ahead, served, joined, List.countP_append, Nat.add_zero]
      refine Nat.add_le_add_left ?_ _
      by_cases hold : s.now ≤ waiting.createdAt
      · rw [if_pos hold]
        exact List.countP_le_length
      · simp [Row.aheadOf, NewSubmission.row, hold]
  | sweep =>
    cases hstep
    refine (countP_updateWhere_le s.rows).trans (Nat.add_le_add_left (List.countP_mono_left fun r _ hboth => ?_) _)
    simp only [Row.aheadOf, Bool.and_eq_true] at hboth
    simp only [hboth.1, hboth.2.1.2, Bool.and_self]
  | writeResult i reply =>
    cases Fleet.effect_of_step hstep with
    | writeResult _ _ hcommitted task htask result hphase =>
      exact ahead_writeResult (hinv.isTerminal_of_writing htask hphase)
    | writeResultFailed _ task htask result hphase => exact le_refl _
  | writeSandboxFailure i elapsed reply =>
    cases Fleet.effect_of_step hstep with
    | writeSandboxFailure _ _ _ hcommitted task htask hphase => exact ahead_writeSandboxFailure
    | writeSandboxFailureFailed _ _ task htask hphase => exact le_refl _
  | publishProcessing i ok =>
    cases Fleet.effect_of_step hstep
    exact le_refl _
  | execute i outcome =>
    cases Fleet.effect_of_step hstep with
    | execute _ result task htask hphase => exact le_refl _
    | executeFailed _ task htask hphase => exact le_refl _
  | publishFinished i ok =>
    cases Fleet.effect_of_step hstep
    exact le_refl _
  | crash i =>
    cases Fleet.effect_of_step hstep
    exact le_refl _
  | tick elapsed =>
    cases Fleet.effect_of_step hstep
    exact le_refl _

/-- Every step pays for its claim. -/
theorem ahead_step {waiting : Row} {s t : Fleet} {a : StoreAction} (hinv : FleetInv s)
    (hallowed : WaitsUnlocked waiting s a) (hstep : storeStep s a = some t) :
    ahead waiting t + served s a ≤ ahead waiting s + joined waiting s a := by
  cases a with
  | fleet a => exact ahead_fleetStep hinv hallowed hstep
  | scrubPayloads config =>
    cases hstep
    refine countP_updateWhere_le_of_forall fun r hr hselected => Row.aheadOf_of_not_queued ?_
    rw [Bool.and_eq_true] at hselected
    intro hqueued
    have hterminal := isTerminal_of_finishedBefore (hinv.rows r hr) hselected.1
    rw [show r.status = .queued from hqueued] at hterminal
    cases hterminal
  | expireOldRows config =>
    cases hstep
    exact List.filter_sublist.countP_le

/-- From any reachable state on, as long as a row waits and is never found locked, no more claims take effect than there
were rows ahead of it, and rows that were inserted at its own time or swept back ahead of it. -/
theorem claims_before_turn {s : Fleet} (reached : Reaches storeStep (fun _ a => JudgedStore a) Fleet.init s)
    (waiting : Row) (actions : List StoreAction) (hwaits : Along storeStep (WaitsUnlocked waiting) s actions) :
    total storeStep served s actions ≤ ahead waiting s + total storeStep (joined waiting) s actions := by
  refine total_le_of_potential FleetInv (ahead waiting) (fun s a t hinv hallowed hstep => ?_)
    (fun s a t hinv hallowed hstep => ahead_step hinv hallowed hstep) (fleetInv_of_reaches reached) hwaits
  exact fleetInv_of_storeStep hinv (fun b hb => by subst hb; exact hallowed.2.1) hstep

/-- The second of two rows waits while the first one is claimed, which was ahead of it. -/
theorem claims_before_turn_twoRows :
    total storeStep served (twoRows 1) [.fleet (.claim "w" [] 1 .acknowledged)] = 1 ∧
      total storeStep served (twoRows 1) [.fleet (.claim "w" [] 1 .acknowledged)] ≤
        ahead ((NewSubmission.blank 2).row 1) (twoRows 1) +
          total storeStep (joined ((NewSubmission.blank 2).row 1)) (twoRows 1)
            [.fleet (.claim "w" [] 1 .acknowledged)] :=
  ⟨by decide +kernel, claims_before_turn (reaches_twoRows (by decide +kernel)) ((NewSubmission.blank 2).row 1) _
    ⟨⟨⟨(NewSubmission.blank 2).row 1, by decide +kernel, rfl, rfl, rfl⟩, trivial, by decide, by decide⟩,
      fun _ _ => trivial⟩⟩

end ZeroCode.Worker
