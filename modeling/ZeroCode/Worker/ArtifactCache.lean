import ZeroCode.Sandbox.PhaseOrder

/-!
# The artifact a worker caches

PID 1 packs the box and writes the archive into its pipe piece by piece; whatever
arrived, up to the cap of the reader, is the compiled binary of the outcome. A worker
inserts it under the compile key for every status but a compile error, also when PID 1
was killed in the middle of sending, and the first insertion stays.
-/

namespace ZeroCode.Worker

open ZeroCode.Core ZeroCode.Foundation ZeroCode.Sandbox ZeroCode.Sandbox.Phases

/-- What `process` inserts into the compile cache for a result. -/
def artifactToInsert (job : SandboxJob) (result : SandboxResult) : Option Bytes :=
  if job.language.compileCmd.isSome && result.status != .compileError then result.compiledBinary else none

/-- Nothing is inserted but the whole archive that PID 1 packed. -/
def InsertsWholeArchive (job : SandboxJob) (s : State) (result : SandboxResult) : Prop :=
  ∀ blob, artifactToInsert job result = some blob → s.archive = some blob

/-- PID 1 has not packed the box yet. -/
def unpacked : Pc → Bool
  | .setup | .compileFork | .compileWait _ | .packing => true
  | _ => false

/-- A killed PID 1 does not pack. -/
@[simp]
theorem unpacked_kill (pc : Pc) : unpacked pc.kill = false := by
  cases pc <;> rfl

/-- A killed PID 1 does not send. -/
@[simp]
theorem kill_ne_sending (pc : Pc) (rest : Bytes) : pc.kill ≠ .sending rest := by
  cases pc <;> exact nofun

/-- A step that neither packs nor sends. -/
structure ArtifactKept (s t : State) : Prop where
  archive : t.archive = s.archive
  bytes : bytesOf t.io.log .artifact = bytesOf s.io.log .artifact
  sending : ∀ rest, t.pc = .sending rest → s.pc = .sending rest
  unpacked : unpacked t.pc = true → unpacked s.pc = true

/-- What one step does to the artifact: nothing, packing, or sending a piece. -/
inductive ArtifactStep (s t : State) : Prop
  | kept (kept : ArtifactKept s t)
  | packed (bytes : Bytes) (before : s.pc = .packing) (after : t.pc = .sending bytes)
      (archive : t.archive = some bytes) (io : t.io = s.io)
  | sent (piece rest : Bytes) (before : s.pc = .sending (piece ++ rest)) (after : t.pc = .sending rest)
      (archive : t.archive = s.archive)
      (bytes : bytesOf t.io.log .artifact = bytesOf s.io.log .artifact ++ piece)

/-- The calls of the executed programs do not reach the artifact pipe. -/
theorem bytesOf_call {io : Streams} {writer : Writer} {table : FdTable} {stdin : Bytes} {c : Syscall}
    (holds : ∀ {n d p}, table n = some d → d.target = .pipe (p, .write) →
      (p, PipeIsolation.Side.write) ∈ inheritedWrites) :
    bytesOf (io.call writer table stdin c).1.log .artifact = bytesOf io.log .artifact := by
  obtain ⟨entries, hlog, hentries⟩ := call_log io writer table stdin c holds
  have hnone : bytesOf entries .artifact = [] := by
    rw [bytesOf_eq_nil_iff]
    intro w hw hpipe
    obtain ⟨_, hmem⟩ := hentries w hw
    rw [hpipe] at hmem
    exact absurd hmem (by decide)
  rw [hlog, bytesOf_append, hnone, List.append_nil]

/-- Every step is one of the three. -/
theorem step_artifact {job : SandboxJob} {cached : Bool} {num : Numbering} {s t : State} {a : Action}
    (taken : step job cached num s a = some t) : ArtifactStep s t := by
  cases a with
  | compilerCall c =>
    simp only [step] at taken
    split at taken
    · cases taken
      exact .kept ⟨rfl, bytesOf_call compilerTable_write, fun _ => id, id⟩
    · cases taken
  | programCall c =>
    simp only [step] at taken
    split at taken
    · cases taken
      exact .kept ⟨rfl, bytesOf_call programTable_write, fun _ => id, id⟩
    · cases taken
  | pack archive =>
    simp only [step] at taken
    split at taken
    · rename_i hpc
      split at taken
      all_goals cases taken
      · exact .packed _ hpc rfl rfl rfl
      · exact .kept ⟨rfl, rfl, by simp, by simp [unpacked]⟩
    · cases taken
  | send count =>
    simp only [step] at taken
    split at taken
    · rename_i b rest hpc
      split at taken
      all_goals cases taken
      · exact .kept ⟨rfl, rfl, by simp, by simp [unpacked]⟩
      · refine .sent ((b :: rest).take count) ((b :: rest).drop count) (by rw [List.take_append_drop, hpc]) rfl rfl ?_
        simp [bytesOf_emit]
    · cases taken
  | _ =>
    simp only [step] at taken
    repeat' split at taken
    all_goals cases taken
    all_goals refine .kept ⟨rfl, ?_, ?_, ?_⟩ <;> (try simp only [unpacked_kill]) <;>
      simp_all [bytesOf_emit, unpacked]

/-- How much of the archive went through, along every run. -/
structure ArtifactInv (s : State) : Prop where
  unpacked : unpacked s.pc = true → s.archive = none
  sent : ∃ rest, s.archive.getD [] = bytesOf s.io.log .artifact ++ rest
  sending : ∀ rest, s.pc = .sending rest → s.archive = some (bytesOf s.io.log .artifact ++ rest)
  entered : s.archive ≠ none → s.entered = true

/-- The invariant holds before the first step. -/
theorem artifactInv_init : ArtifactInv State.init where
  unpacked := fun _ => rfl
  sent := ⟨[], rfl⟩
  sending := nofun
  entered := fun h => absurd rfl h

/-- One step preserves the invariant. -/
theorem step_artifactInv {job : SandboxJob} {cached : Bool} {num : Numbering} {s t : State} {a : Action}
    (inv : Inv s) (h : ArtifactInv s) (taken : step job cached num s a = some t) : ArtifactInv t := by
  obtain ⟨entries, effect⟩ := step_effect taken
  cases step_artifact taken with
  | kept kept =>
    refine ⟨?_, ?_, ?_, ?_⟩
    · intro hpc
      rw [kept.archive, h.unpacked (kept.unpacked hpc)]
    · rw [kept.archive, kept.bytes]
      exact h.sent
    · intro rest hpc
      rw [kept.archive, kept.bytes]
      exact h.sending rest (kept.sending rest hpc)
    · rw [kept.archive]
      exact fun hpacked => effect.keeps_entered (h.entered hpacked)
  | packed bytes before after archive io =>
    -- nothing was packed before, so the pipe is still empty
    obtain ⟨rest, hrest⟩ := h.sent
    rw [h.unpacked (by rw [before]; rfl), Option.getD_none] at hrest
    have hempty := (List.nil_eq_append_iff.mp hrest).1
    refine ⟨?_, ?_, ?_, ?_⟩
    · simp [after, Worker.unpacked]
    · rw [archive, io, hempty]
      exact ⟨bytes, rfl⟩
    · intro rest hpc
      rw [after] at hpc
      cases hpc
      rw [archive, io, hempty, List.nil_append]
    · exact fun _ => effect.keeps_entered (inv.entered (by rw [before]; rfl))
  | sent piece rest before after archive bytes =>
    have harchive := h.sending _ before
    refine ⟨?_, ?_, ?_, ?_⟩
    · simp [after, Worker.unpacked]
    · rw [archive, bytes, harchive, Option.getD_some]
      exact ⟨rest, (List.append_assoc _ _ _).symm⟩
    · intro rest' hpc
      rw [after] at hpc
      cases hpc
      rw [archive, bytes, harchive, List.append_assoc]
    · rw [archive]
      exact fun hpacked => effect.keeps_entered (h.entered hpacked)

/-- Every reachable state keeps the invariant. -/
theorem reachable_artifactInv {job : SandboxJob} {cached : Bool} {num : Numbering} {s : State}
    (reached : Reachable (step job cached num) State.init s) : ArtifactInv s :=
  (reached.invariant (fun s => Inv s ∧ ArtifactInv s) ⟨inv_init, artifactInv_init⟩ fun s a t h _ taken =>
    ⟨step_inv s a t h.1 taken, step_artifactInv h.1 h.2 taken⟩).2

/-- What was sent is the beginning of what was packed. -/
theorem ArtifactInv.packed {s : State} (h : ArtifactInv s) (hsent : bytesOf s.io.log .artifact ≠ []) :
    ∃ rest, s.archive = some (bytesOf s.io.log .artifact ++ rest) := by
  obtain ⟨rest, hrest⟩ := h.sent
  cases harchive : s.archive with
  | none =>
    rw [harchive, Option.getD_none] at hrest
    exact absurd (List.nil_eq_append_iff.mp hrest).1 hsent
  | some archive =>
    rw [harchive, Option.getD_some] at hrest
    exact ⟨rest, by rw [hrest]⟩

/-- A job that packed an archive has a compile command and no cached artifact. -/
theorem cold_of_packed {job : SandboxJob} {cached : Bool} {num : Numbering} {s : State}
    (reached : Reachable (step job cached num) State.init s) (hpacked : s.archive ≠ none) :
    cached = false ∧ job.language.compileCmd.isSome = true := by
  have hwill := entered_willCompile reached ((reachable_artifactInv reached).entered hpacked)
  simp only [LanguageSpec.willCompile, Bool.and_eq_true, Bool.not_eq_true'] at hwill
  refine ⟨hwill.2, ?_⟩
  cases hcmd : job.language.compileCmd with
  | none => simp [hcmd] at hwill
  | some cmd => rfl

/-- The compiled binary of a result is the capped content of the artifact pipe, if there is any. -/
theorem returns_compiledBinary {job : SandboxJob} {cached : Bool} {num : Numbering} {s : State} {m : Measures s}
    {result : SandboxResult} (reached : Reachable (step job cached num) State.init s)
    (h : Returns job cached s m result) :
    result.compiledBinary =
      if bytesOf s.io.log .artifact = [] then none
      else some ((bytesOf s.io.log .artifact).take maxArtifact) := by
  obtain ⟨raw, hraw, hconcluded⟩ := h.returned
  obtain ⟨triaged, _, rfl⟩ := conclude_ok hconcluded
  have hbinary := (raw_collected hraw).compiledBinary
  by_cases hsent : bytesOf s.io.log .artifact = []
  · rw [if_pos hsent, hbinary, hsent]
    simp
  · obtain ⟨rest, harchive⟩ := (reachable_artifactInv reached).packed hsent
    obtain ⟨hcold, hcmd⟩ := cold_of_packed reached (by simp [harchive])
    have hsome : (bytesOf s.io.log .artifact).take maxArtifact ≠ [] := by
      simpa [maxArtifact] using hsent
    rw [if_neg hsent, hbinary, hcold, hcmd]
    simp [hsome]

/-- Only whole archives are inserted exactly when the sentinel ends the job, nothing was sent, or
all of an archive within the reader's cap was. -/
theorem insertsWholeArchive_iff {job : SandboxJob} {cached : Bool} {num : Numbering} {s : State} {m : Measures s}
    {result : SandboxResult} (reached : Reachable (step job cached num) State.init s)
    (h : Returns job cached s m result) :
    InsertsWholeArchive job s result ↔
      EndsWithSentinel s m ∨ bytesOf s.io.log .artifact = [] ∨
        (s.archive = some (bytesOf s.io.log .artifact) ∧ (bytesOf s.io.log .artifact).length ≤ maxArtifact) := by
  have inv := reachable_artifactInv reached
  by_cases hgraded : EndsWithSentinel s m
  · have herror := (returns_compileError_iff h).mpr hgraded
    refine ⟨fun _ => Or.inl hgraded, fun _ blob hblob => ?_⟩
    simp [artifactToInsert, herror] at hblob
  have hstatus : result.status ≠ .compileError := (returns_compileError_iff h).not.mpr hgraded
  have hbinary := returns_compiledBinary reached h
  by_cases hsent : bytesOf s.io.log .artifact = []
  · rw [if_pos hsent] at hbinary
    refine ⟨fun _ => Or.inr (Or.inl hsent), fun _ blob hblob => ?_⟩
    simp [artifactToInsert, hbinary] at hblob
  rw [if_neg hsent] at hbinary
  obtain ⟨rest, harchive⟩ := inv.packed hsent
  obtain ⟨_, hcmd⟩ := cold_of_packed reached (by simp [harchive])
  have hinsert : artifactToInsert job result = some ((bytesOf s.io.log .artifact).take maxArtifact) := by
    rw [artifactToInsert, hcmd, bne_iff_ne.mpr hstatus, hbinary]
    rfl
  constructor
  · intro hwhole
    have hsame := Option.some.inj (harchive.symm.trans (hwhole _ hinsert))
    have hlength := congrArg List.length hsame
    rw [List.length_append, List.length_take] at hlength
    have hrest : rest = [] := List.length_eq_zero_iff.mp (by omega)
    rw [hrest, List.append_nil] at harchive
    exact Or.inr (Or.inr ⟨harchive, by omega⟩)
  · intro hcondition blob hblob
    obtain ⟨hall, hfits⟩ := (hcondition.resolve_left hgraded).resolve_left hsent
    rw [hinsert, List.take_of_length_le hfits] at hblob
    rw [hall, hblob]

/-- A job that sends its whole archive has it cached. -/
theorem insertsWholeArchive_iff_cold :
    ∃ result, Returns .compiled false (finalState .compiled false (coldRun [] [] [1, 2, 3])) (.whole _ 5) result ∧
      InsertsWholeArchive .compiled (finalState .compiled false (coldRun [] [] [1, 2, 3])) result := by
  have reached := reachable_finalState .compiled false (coldRun [] [] [1, 2, 3]) (by decide +kernel)
  obtain ⟨result, hresult⟩ :=
    exists_returns_finalState .compiled false (coldRun [] [] [1, 2, 3]) (by decide +kernel) 5
  exact ⟨result, hresult, (insertsWholeArchive_iff reached hresult).mpr
    (Or.inr (Or.inr ⟨by decide +kernel, by decide +kernel⟩))⟩

/-- The steps of a job that is killed for its wall budget after one byte of its archive. -/
def killedWhileSending : List Action :=
  [.setupDone, .forkCompiler, .subRedirect, .subExec, .compilerEnd .success, .reap [], .pack (some [1, 2, 3]),
    .send 1, .deadline, .wallKill, .reapOuter, .barrierFails]

/-- A job killed while it sends its archive leaves a truncated one in the cache. -/
theorem killedWhileSending_insertsTruncated :
    ¬ ∀ job cached num s, Reachable (step job cached num) State.init s → ∀ (m : Measures s) result,
      Returns job cached s m result → InsertsWholeArchive job s result := by
  intro h
  have reached := reachable_finalState .compiled false killedWhileSending (by decide +kernel)
  obtain ⟨result, hresult⟩ := exists_returns_finalState .compiled false killedWhileSending (by decide +kernel) 5
  rcases (insertsWholeArchive_iff reached hresult).mp (h _ _ _ _ reached _ _ hresult) with hend | hnone | ⟨hall, _⟩
  · exact absurd hend.2.2 (by decide +kernel)
  · exact absurd hnone (by decide +kernel)
  · exact absurd hall (by decide +kernel)

end ZeroCode.Worker
