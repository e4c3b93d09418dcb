import ZeroCode.Sandbox.Capture

/-!
# Draining a stream behind its cap

What is left of a stream behind the cap is read and thrown away, so that the writer does not
meet a closed pipe. The loop that captures takes up an interrupted read again; the loop that
drains takes it for the end. The pipe is drained exactly if no read is interrupted after the
cap was reached.
-/

namespace ZeroCode.Sandbox

open ZeroCode.Core

/-- A subtraction of machine words, which must not fall below zero. -/
def checkedSub (a b : ℕ) : Option ℕ := if b ≤ a then some (a - b) else none

/-- Capture a stream like `readInto`, with the room left in the buffer as a checked subtraction. -/
def captureInto (cap : ℕ) (buf : Bytes) : List ReadReply → Option (Bytes × List ReadReply)
  | [] => some (buf, [])
  | .data [] :: rest => some (buf, rest)
  | .data (b :: chunk) :: rest =>
    (checkedSub cap buf.length).bind fun room =>
      let filled := buf ++ (b :: chunk).take (min room (b :: chunk).length)
      if cap ≤ filled.length then some (filled, drain rest) else captureInto cap filled rest
  | .interrupted :: rest => captureInto cap buf rest
  | .failed :: rest => some (buf, rest)

/-- What a read replies before the end of a stream that does not fail: some bytes, or an interruption. -/
def ReadReply.BeforeEnd : ReadReply → Prop
  | .data chunk => chunk ≠ []
  | .interrupted => True
  | .failed => False

instance : DecidablePred ReadReply.BeforeEnd
  | .data chunk => inferInstanceAs (Decidable (chunk ≠ []))
  | .interrupted => isTrue trivial
  | .failed => isFalse id

/-- Reads are interrupted only while the cap is not reached: less than the cap has come, or nothing at all. -/
def EarlyInterruptions (cap : ℕ) (events : List ReadReply) : Prop :=
  ∀ before after, events = before ++ .interrupted :: after →
    (delivered before).length < cap ∨ delivered before = []

/-- The subtraction never falls below zero. -/
theorem captureInto_eq {cap : ℕ} {buf : Bytes} (hbuf : buf.length ≤ cap) (replies : List ReadReply) :
    captureInto cap buf replies = some (readInto cap buf replies) := by
  induction buf, replies using readInto.induct cap with
  | case1 buf => rfl
  | case2 buf rest => rfl
  | case3 buf b chunk rest filled hfull =>
    rw [captureInto, checkedSub, if_pos hbuf, Option.bind_some, readInto]
    exact (if_pos hfull).trans (congrArg some (if_pos hfull).symm)
  | case4 buf b chunk rest filled hroom ih =>
    rw [captureInto, checkedSub, if_pos hbuf, Option.bind_some, readInto]
    exact (if_neg hroom).trans ((ih (by omega)).trans (congrArg some (if_neg hroom).symm))
  | case5 buf rest ih =>
    rw [captureInto, readInto]
    exact ih hbuf
  | case6 buf rest => rfl

/-- A stream before its end, as some bytes or an interruption at a time. -/
inductive OpenStream : List ReadReply → Prop
  | nil : OpenStream []
  | bytes (b : UInt8) (chunk : Bytes) {rest : List ReadReply} (later : OpenStream rest) :
      OpenStream (.data (b :: chunk) :: rest)
  | interruption {rest : List ReadReply} (later : OpenStream rest) : OpenStream (.interrupted :: rest)

/-- What a stream replies before its end is such a stream. -/
theorem OpenStream.of_forall {events : List ReadReply} (h : ∀ e ∈ events, e.BeforeEnd) : OpenStream events := by
  induction events with
  | nil => exact .nil
  | cons e rest ih =>
    obtain ⟨he, hrest⟩ := List.forall_mem_cons.mp h
    cases e with
    | data chunk =>
      cases chunk with
      | nil => exact absurd rfl he
      | cons b chunk => exact .bytes b chunk (ih hrest)
    | interrupted => exact .interruption (ih hrest)
    | failed => exact he.elim

/-- What comes before an occurrence in a list is nothing, for the first entry, or the first entry with what comes before
an occurrence behind it. -/
theorem forall_split_cons {α : Type*} {first x : α} {rest : List α} {bound : List α → Prop} :
    (∀ before after, first :: rest = before ++ x :: after → bound before) ↔
      (first = x → bound []) ∧ ∀ before after, rest = before ++ x :: after → bound (first :: before) := by
  constructor
  · intro hall
    refine ⟨fun hfirst => hall [] rest (by rw [hfirst, List.nil_append]), fun before after hsplit => ?_⟩
    exact hall (first :: before) after (by rw [hsplit, List.cons_append])
  · rintro ⟨hfirst, hrest⟩ before after hsplit
    cases before with
    | nil => exact hfirst (List.cons.inj hsplit).1
    | cons other before =>
      obtain ⟨rfl, htail⟩ := List.cons.inj hsplit
      exact hrest before after htail

/-- The end of the stream delivers nothing. -/
theorem delivered_append_end {events : List ReadReply} (h : OpenStream events) :
    delivered (events ++ [.data []]) = delivered events := by
  induction h with
  | nil => rfl
  | bytes b chunk later ih => rw [List.cons_append, delivered, delivered, ih]
  | interruption later ih => exact ih

/-- A stream is drained to its end exactly if no read is interrupted. -/
theorem drain_eq_nil_iff {events : List ReadReply} (h : OpenStream events) :
    drain (events ++ [.data []]) = [] ↔ .interrupted ∉ events := by
  induction h with
  | nil => simp [drain]
  | bytes b chunk later ih =>
    rw [List.cons_append, drain, ih]
    simp
  | interruption later ih => simp [drain]

/-- Once the cap is reached, the stream is read to its end exactly if no interruption is left. -/
theorem drain_eq_nil_iff_bounded {cap : ℕ} {buf : Bytes} (hfull : cap ≤ buf.length) (hne : buf ≠ [])
    {events : List ReadReply} (h : OpenStream events) :
    drain (events ++ [.data []]) = [] ↔ ∀ before after, events = before ++ .interrupted :: after →
      (buf ++ delivered before).length < cap ∨ buf ++ delivered before = [] := by
  rw [drain_eq_nil_iff h]
  constructor
  · intro hnone before after hsplit
    exact absurd (hsplit ▸ List.mem_append_right before List.mem_cons_self) hnone
  · intro hbound hmem
    obtain ⟨before, after, hsplit⟩ := List.append_of_mem hmem
    rcases hbound before after hsplit with hshort | hnil
    · rw [List.length_append] at hshort
      omega
    · exact hne (List.append_eq_nil_iff.mp hnil).1

/-- A stream is read to its end exactly if no read is interrupted once the cap is reached. -/
theorem readInto_eq_nil_iff {cap : ℕ} {buf : Bytes} (hbuf : buf.length < cap ∨ buf = []) {events : List ReadReply}
    (h : OpenStream events) :
    (readInto cap buf (events ++ [.data []])).2 = [] ↔
      ∀ before after, events = before ++ .interrupted :: after →
        (buf ++ delivered before).length < cap ∨ buf ++ delivered before = [] := by
  induction h generalizing buf with
  | nil =>
    refine ⟨fun _ before after hsplit => ?_, fun _ => rfl⟩
    exact absurd hsplit.symm (by simp)
  | bytes b chunk later ih =>
    have hle : buf.length ≤ cap := hbuf.elim Nat.le_of_lt fun hnil => by simp [hnil]
    -- behind the chunk, an interruption comes with the chunk delivered
    rw [forall_split_cons, and_iff_right (fun hfirst => by cases hfirst), List.cons_append, readInto,
      append_take_room hle (b :: chunk)]
    simp only [delivered, ← List.append_assoc]
    split
    · rename_i hfull
      exact drain_eq_nil_iff_bounded (hfull.trans (List.length_take_le' _ _)) (by simp) later
    · rename_i hroom
      have hshort : (buf ++ b :: chunk).length < cap := by
        rw [List.length_take] at hroom
        omega
      rw [List.take_of_length_le (Nat.le_of_lt hshort)]
      exact ih (Or.inl hshort)
  | interruption later ih =>
    rw [forall_split_cons, and_iff_right (fun _ => by rwa [delivered, List.append_nil]), List.cons_append, readInto]
    exact ih hbuf

/-- For every cap and every stream that does not fail, however it is cut and wherever it is interrupted: the
subtraction does not fall below zero and the capped prefix is kept; and the stream is read to its end exactly if no
read is interrupted once the cap is reached. -/
theorem capture_drains_iff {events : List ReadReply} (h : ∀ e ∈ events, e.BeforeEnd) (cap : ℕ) :
    (∃ unread, captureInto cap [] (events ++ [.data []]) = some ((delivered events).take cap, unread)) ∧
      (captureInto cap [] (events ++ [.data []]) = some ((delivered events).take cap, []) ↔
        EarlyInterruptions cap events) := by
  have hopen := OpenStream.of_forall h
  have hcaptured : captureInto cap [] (events ++ [.data []]) =
      some ((delivered events).take cap, (readInto cap [] (events ++ [.data []])).2) := by
    have hkept := @readInto_fst cap [] (Nat.zero_le cap) (events ++ [.data []])
    rw [List.nil_append, delivered_append_end hopen] at hkept
    rw [captureInto_eq (Nat.zero_le cap), ← hkept]
  refine ⟨⟨_, hcaptured⟩, ?_⟩
  rw [hcaptured, Option.some_inj, Prod.mk_right_inj, readInto_eq_nil_iff (Or.inr rfl) hopen]
  exact Iff.rfl

/-- A stream that is interrupted before its cap is drained. -/
theorem capture_drains_iff_early :
    captureInto 2 [] [.data [1], .interrupted, .data [2, 3], .data [4], .data []] = some ([1, 2], []) := by
  have hevents : ∀ e ∈ [ReadReply.data [1], .interrupted, .data [2, 3], .data [4]], e.BeforeEnd := by decide
  refine (capture_drains_iff hevents 2).2.mpr fun before after hsplit => ?_
  rcases before with _ | ⟨_, _ | ⟨_, before⟩⟩
  · cases hsplit
  · cases hsplit
    exact Or.inl (by decide)
  · have htail : [ReadReply.data [2, 3], .data [4]] = before ++ .interrupted :: after :=
      (List.cons.inj (List.cons.inj hsplit).2).2
    have hmem : ReadReply.interrupted ∈ [ReadReply.data [2, 3], .data [4]] :=
      htail ▸ List.mem_append_right before List.mem_cons_self
    exact absurd hmem (by decide)

/-- A stream that is interrupted behind its cap is left with a chunk in it. -/
theorem interruption_ends_draining :
    captureInto 2 [] [.data [1, 2], .interrupted, .data [3], .data []] = some ([1, 2], [.data [3], .data []]) ∧
      ¬ ∀ (cap : ℕ) (events : List ReadReply), (∀ e ∈ events, e.BeforeEnd) →
        captureInto cap [] (events ++ [.data []]) = some ((delivered events).take cap, []) := by
  have hleft : captureInto 2 [] [.data [1, 2], .interrupted, .data [3], .data []] =
      some ([1, 2], [.data [3], .data []]) := by decide
  refine ⟨hleft, fun hclaim => ?_⟩
  have hdrained := hclaim 2 [.data [1, 2], .interrupted, .data [3]] (by decide)
  cases hleft.symm.trans hdrained

end ZeroCode.Sandbox
