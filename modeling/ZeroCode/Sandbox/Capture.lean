import ZeroCode.Sandbox.Triage

/-!
# Capturing a stream up to a cap

A reader thread collects one pipe until it ends, keeps at most the cap and drains the
rest so that the writer is not stopped. What it keeps does not depend on how the bytes
were cut into chunks: it is the capped prefix of what the pipe delivered. That something
was left out is not part of the outcome, so triage cannot report it.
-/

namespace ZeroCode.Sandbox

open ZeroCode.Core

/-- One reply of `read` on a pipe; an empty chunk is its end. -/
inductive ReadReply
  | data (chunk : Bytes)
  | interrupted
  | failed
  deriving DecidableEq, Repr

/-- Discard what is left of a stream, and return the replies not consumed. -/
def drain : List ReadReply → List ReadReply
  | [] => []
  | .data [] :: rest => rest
  | .data (_ :: _) :: rest => drain rest
  -- unlike the capturing loop, this one also stops at an interrupted read
  | .interrupted :: rest | .failed :: rest => rest

/-- Capture a stream behind what is already buffered, and return the replies not consumed. -/
def readInto (cap : ℕ) (buf : Bytes) : List ReadReply → Bytes × List ReadReply
  | [] => (buf, [])
  | .data [] :: rest => (buf, rest)
  | .data (b :: chunk) :: rest =>
    let filled := buf ++ (b :: chunk).take (min (cap - buf.length) (b :: chunk).length)
    if cap ≤ filled.length then (filled, drain rest) else readInto cap filled rest
  | .interrupted :: rest => readInto cap buf rest
  | .failed :: rest => (buf, rest)

/-- Capture at most `cap` bytes of a stream. -/
def readCapped (cap : ℕ) (replies : List ReadReply) : Bytes := (readInto cap [] replies).1

/-- The bytes a stream delivers before its end or its first failure. -/
def delivered : List ReadReply → Bytes
  | [] => []
  | .data [] :: _ => []
  | .data (b :: chunk) :: rest => b :: chunk ++ delivered rest
  | .interrupted :: rest => delivered rest
  | .failed :: _ => []

/-- A stream that comes in one piece delivers that piece. -/
theorem delivered_singleton (bytes : Bytes) : delivered [.data bytes] = bytes := by
  cases bytes <;> simp [delivered]

/-- Filling up to the cap keeps a prefix of the buffer and the chunk together. -/
theorem append_take_room {cap : ℕ} {buf : Bytes} (hbuf : buf.length ≤ cap) (chunk : Bytes) :
    buf ++ chunk.take (min (cap - buf.length) chunk.length) = (buf ++ chunk).take cap := by
  rw [List.take_append, List.take_of_length_le hbuf, ← List.take_eq_take_min]

/-- What is captured behind a buffer is a capped prefix of the buffer and the stream. -/
theorem readInto_fst {cap : ℕ} {buf : Bytes} (hbuf : buf.length ≤ cap) (replies : List ReadReply) :
    (readInto cap buf replies).1 = (buf ++ delivered replies).take cap := by
  induction buf, replies using readInto.induct cap with
  | case1 buf => simp [readInto, delivered, List.take_of_length_le hbuf]
  | case2 buf rest => simp [readInto, delivered, List.take_of_length_le hbuf]
  | case3 buf b chunk rest filled hfull =>
    have hfilled : filled = (buf ++ b :: chunk).take cap := append_take_room hbuf (b :: chunk)
    have hlong : cap ≤ (buf ++ b :: chunk).length := by
      rw [hfilled, List.length_take] at hfull
      exact hfull.trans (Nat.min_le_right _ _)
    rw [readInto, if_pos hfull, delivered, ← List.append_assoc, List.take_append_of_le_length hlong]
    exact hfilled
  | case4 buf b chunk rest filled hroom ih =>
    have hfilled : filled = (buf ++ b :: chunk).take cap := append_take_room hbuf (b :: chunk)
    have hshort : (buf ++ b :: chunk).length ≤ cap := by
      rw [hfilled, List.length_take] at hroom
      omega
    rw [List.take_of_length_le hshort] at hfilled
    rw [readInto, if_neg hroom, ih (hfilled ▸ hshort), hfilled, delivered, List.append_assoc]
  | case5 buf rest ih => rw [readInto, delivered, ih hbuf]
  | case6 buf rest => simp [readInto, delivered, List.take_of_length_le hbuf]

/-- What is captured is the capped prefix of what the stream delivered, in any chunking. -/
theorem readCapped_eq_take (cap : ℕ) (replies : List ReadReply) :
    readCapped cap replies = (delivered replies).take cap := by
  rw [readCapped, readInto_fst (Nat.zero_le cap), List.nil_append]

/-- A capped stream is stored whole exactly when it fits. -/
theorem readCapped_eq_delivered_iff (cap : ℕ) (replies : List ReadReply) :
    readCapped cap replies = delivered replies ↔ (delivered replies).length ≤ cap := by
  rw [readCapped_eq_take, List.take_eq_self_iff]

/-- The program wrote these bytes to its two streams, exited with 0 and stayed within its
other limits; the readers saw every byte, in whatever chunks. -/
structure CleanRun (limits : ResourceLimits) (raw : RawOutcome) (cgroup : CgroupReading) (cpuLimit : Duration)
    (stdout stderr : Bytes) : Prop where
  stdoutRead : ∃ replies, delivered replies = stdout ∧ raw.stdout = readCapped limits.maxStdout replies
  stderrRead : ∃ replies, delivered replies = stderr ∧ raw.stderr = readCapped limits.maxStderr replies
  exited : raw.exitStatus = .exited 0
  noWallKill : raw.killedByWallTimeout = false
  noOom : cgroup.oomKilled = false
  cpu : billedCpuTime raw cgroup ≤ cpuLimit

/-- An output beyond its cap is reported, and an accepted result stores both streams whole. -/
def ReportsTruncation (limits : ResourceLimits) (stdout stderr : Bytes)
    (triaged : Except SandboxError SandboxResult) : Prop :=
  ∃ result, triaged = .ok result ∧
    (limits.maxStdout < stdout.length ∨ limits.maxStderr < stderr.length → result.status = .outputLimitExceeded) ∧
    (result.status = .accepted → result.stdout = stdout ∧ result.stderr = stderr)

/-- A clean run is accepted, whatever it wrote. -/
theorem CleanRun.accepted {limits : ResourceLimits} {raw : RawOutcome} {cgroup : CgroupReading}
    {cpuLimit : Duration} {stdout stderr : Bytes} (h : CleanRun limits raw cgroup cpuLimit stdout stderr) :
    classifyStatus raw cgroup cpuLimit = .accepted := by
  unfold classifyStatus
  rw [h.noOom, h.noWallKill, h.exited, if_neg (not_lt.mpr h.cpu)]
  rfl

/-- Truncation is reported exactly when there is none: both streams fit their caps. -/
theorem classify_reportsTruncation_iff {limits : ResourceLimits} {raw : RawOutcome} {cgroup : CgroupReading}
    {cpuLimit : Duration} {stdout stderr : Bytes} (h : CleanRun limits raw cgroup cpuLimit stdout stderr)
    (wallElapsed : Duration) :
    ReportsTruncation limits stdout stderr (classify raw cgroup cpuLimit wallElapsed) ↔
      stdout.length ≤ limits.maxStdout ∧ stderr.length ≤ limits.maxStderr := by
  obtain ⟨result, hresult, hstatus, hstreams, _⟩ := classify_spec raw cgroup cpuLimit wallElapsed
  have haccepted : result.status = .accepted := hstatus.trans h.accepted
  obtain ⟨hstdout, hstderr⟩ := hstreams (by rw [haccepted]; decide)
  obtain ⟨out, rfl, hout⟩ := h.stdoutRead
  obtain ⟨err, rfl, herr⟩ := h.stderrRead
  rw [ReportsTruncation, hresult]
  constructor
  · intro hreports
    obtain ⟨_, hsame, _, hwhole⟩ := hreports
    cases hsame
    obtain ⟨houtWhole, herrWhole⟩ := hwhole haccepted
    rw [hstdout, hout, readCapped_eq_delivered_iff] at houtWhole
    rw [hstderr, herr, readCapped_eq_delivered_iff] at herrWhole
    exact ⟨houtWhole, herrWhole⟩
  · intro hfits
    refine ⟨result, rfl, ?_, ?_⟩
    · intro hover
      omega
    · intro _
      rw [hstdout, hout, hstderr, herr, readCapped_eq_delivered_iff, readCapped_eq_delivered_iff]
      exact hfits

/-- The limits of a run that may write two bytes to each stream. -/
def twoByteLimits : ResourceLimits := { ResourceLimits.default with maxStdout := 2, maxStderr := 2 }

/-- What is collected from a program that wrote `hey` and exited with 0. -/
def truncatedRun : RawOutcome :=
  ⟨.exited 0, readCapped 2 [.data [104, 101], .interrupted, .data [121]], [], [], [], false, none, none, none⟩

/-- The truncated run is a clean one. -/
theorem cleanRun_truncatedRun : CleanRun twoByteLimits truncatedRun ⟨0, 0, false⟩ 2000000000 [104, 101, 121] [] where
  stdoutRead := ⟨_, rfl, rfl⟩
  stderrRead := ⟨[], rfl, rfl⟩
  exited := rfl
  noWallKill := rfl
  noOom := rfl
  cpu := by decide

/-- A program that wrote less than its caps is stored whole. -/
theorem classify_reportsTruncation_iff_short :
    ReportsTruncation .default [104, 101, 121] [] (classify
      ⟨.exited 0, readCapped (64 * 1024) [.data [104, 101, 121]], [], [], [], false, none, none, none⟩
      ⟨0, 0, false⟩ 2000000000 0) :=
  (classify_reportsTruncation_iff
    ⟨⟨[.data [104, 101, 121]], rfl, rfl⟩, ⟨[], rfl, rfl⟩, rfl, rfl, rfl, by decide⟩ 0).mpr ⟨by decide, by decide⟩

/-- A program whose third byte is dropped is accepted. -/
theorem truncatedRun_isSilent :
    ¬ ∀ limits raw cgroup cpuLimit stdout stderr, CleanRun limits raw cgroup cpuLimit stdout stderr →
      ∀ wallElapsed, ReportsTruncation limits stdout stderr (classify raw cgroup cpuLimit wallElapsed) := by
  intro h
  obtain ⟨result, hresult, hover, _⟩ := h _ _ _ _ _ _ cleanRun_truncatedRun 0
  cases hresult
  cases hover (Or.inl (by decide))

end ZeroCode.Sandbox
