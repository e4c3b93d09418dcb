import ZeroCode.Sandbox.Phases

/-!
# Who writes when

The compile sub-child lives only while PID 1 waits for it, so all its bytes precede
those of our code behind the barrier and those of the program. What a single step adds to
the log, and when it may add it, is said once in `Effect`; the invariant of every run
follows from it.
-/

namespace ZeroCode.Sandbox.Phases

open ZeroCode.Core ZeroCode.Foundation PipeIsolation

/-- The compile phase, if there is one, has not passed yet. -/
def Pc.compiling : Pc → Bool
  | .setup | .compileFork | .compileWait _ => true
  | _ => false

/-- PID 1 is between the decision to compile and its release to the run phase. -/
def Pc.inCompilePhase : Pc → Bool
  | .compileFork | .compileWait _ | .packing | .sending _ | .phaseWrite | .proceedRead => true
  | _ => false

/-- A killed PID 1 does not compile. -/
@[simp]
theorem Pc.kill_compiling (pc : Pc) : pc.kill.compiling = false := by
  cases pc <;> rfl

/-- A killed PID 1 is in neither phase. -/
@[simp]
theorem Pc.kill_inCompilePhase (pc : Pc) : pc.kill.inCompilePhase = false := by
  cases pc <;> rfl

/-- A killed PID 1 has ended. -/
theorem Pc.kill_isEnded (pc : Pc) : ∃ e, pc.kill = .ended e := by
  cases pc <;> exact ⟨_, rfl⟩

/-- A killed PID 1 is not the program. -/
@[simp]
theorem Pc.kill_ne_running (pc : Pc) : pc.kill ≠ .running := by
  cases pc <;> exact nofun

/-- A PID 1 that has ended is not killed again. -/
@[simp]
theorem Pc.kill_ended (e : ProcessEnd) : (Pc.ended e).kill = .ended e := rfl

/-- What one step does: the bytes it adds to the log, and where PID 1 has to be for it. -/
structure Effect (a : Action) (s t : State) (entries : List Written) : Prop where
  log : t.io.log = s.io.log ++ entries
  writers : (∃ sub, s.pc = .compileWait sub) ∧ (∀ w ∈ entries, w.writer = .compiler) ∨
    ∀ w ∈ entries, w.writer ≠ .compiler
  inherited : ∀ w ∈ entries, w.writer ≠ .harness → (w.pipe, Side.write) ∈ inheritedWrites
  compiling : t.pc.compiling = true → s.pc.compiling = true ∧ ∀ w ∈ entries, w.writer = .compiler
  entered : t.entered = true ∨
    t.entered = s.entered ∧ (t.pc.inCompilePhase = true → s.pc.inCompilePhase = true)
  phase : ∀ w ∈ entries, w.pipe = .phase → s.pc = .phaseWrite
  compilerCpu : t.compilerCpu = s.compilerCpu ∨ ∃ sub, s.pc = .compileWait sub
  barrier : t.barrier = s.barrier ∨ t.barrier = .failed ∨ ∃ readable wall,
    t.barrier = .fired readable (if readable then s.compilerCpu + s.otherCpu else 0) wall ∧
      t.compilerCpu = s.compilerCpu ∧ ∃ w ∈ s.io.log, w.pipe = .phase
  harness : ∀ w ∈ entries, w.writer = .harness →
    w.pipe = .artifact ∨ w.pipe = .phase ∨
      (w.pipe = .stderr ∧ (s.pc ≠ .running ∧ ∀ e, s.pc ≠ .ended e) ∧ ∃ e, t.pc = .ended e)
  final : ∀ e, s.pc = .ended e → t.pc = .ended e
  start : (t.startOffset = s.startOffset ∧ (t.pc = .running → s.pc = .running) ∧
      (s.pc = .running → t.pc = .running ∨ ∃ e, t.pc = .ended e)) ∨
    (s.pc = .runExec ∧ t.pc = .running ∧ t.startOffset = some s.io.offset ∧ t.io = s.io)
  compilerReplies : t.compilerReplies = s.compilerReplies ∨ ∃ sub, s.pc = .compileWait sub
  program : (s.pc = .running ∧ ∃ c, a = .programCall c) ∨
    (t.replies = s.replies ∧ (∀ w ∈ entries, w.writer ≠ .program) ∧
      t.io.offset + s.compilerReplies.flatten.length = s.io.offset + t.compilerReplies.flatten.length)

/-- A step that writes nothing. -/
theorem Effect.silent {a : Action} {s t : State} (io : t.io = s.io)
    (compiling : t.pc.compiling = true → s.pc.compiling = true)
    (entered : t.entered = true ∨
      t.entered = s.entered ∧ (t.pc.inCompilePhase = true → s.pc.inCompilePhase = true))
    (compilerCpu : t.compilerCpu = s.compilerCpu ∨ ∃ sub, s.pc = .compileWait sub)
    (barrier : t.barrier = s.barrier ∨ t.barrier = .failed)
    (final : ∀ e, s.pc = .ended e → t.pc = .ended e)
    (start : (t.startOffset = s.startOffset ∧ (t.pc = .running → s.pc = .running) ∧
        (s.pc = .running → t.pc = .running ∨ ∃ e, t.pc = .ended e)) ∨
      (s.pc = .runExec ∧ t.pc = .running ∧ t.startOffset = some s.io.offset ∧ t.io = s.io))
    (compilerReplies : t.compilerReplies = s.compilerReplies) (replies : t.replies = s.replies) :
    ∃ entries, Effect a s t entries := by
  refine ⟨[], by simp [io], Or.inr (by simp), by simp, ?_, entered, by simp, compilerCpu, ?_, by simp, final, start,
    Or.inl compilerReplies, Or.inr ⟨replies, by simp, by rw [io, compilerReplies]⟩⟩
  · intro h
    exact ⟨compiling h, by simp⟩
  · exact barrier.imp_right Or.inl

/-- A step by which our code writes to a pipe, the pipe of the barrier only at its own place. -/
theorem Effect.harnessWrite {a : Action} {s t : State} {pipe : PipeName} {bytes : Bytes}
    (io : t.io = s.io.emit .harness pipe bytes) (compiling : t.pc.compiling = false)
    (entered : t.entered = s.entered ∧ (t.pc.inCompilePhase = true → s.pc.inCompilePhase = true))
    (phase : pipe = .phase → s.pc = .phaseWrite) (compilerCpu : t.compilerCpu = s.compilerCpu)
    (barrier : t.barrier = s.barrier)
    (target : pipe = .artifact ∨ pipe = .phase ∨ (pipe = .stderr ∧ ∃ e, t.pc = .ended e))
    (before : s.pc ≠ .running) (after : t.pc ≠ .running) (living : ∀ e, s.pc ≠ .ended e)
    (startOffset : t.startOffset = s.startOffset)
    (compilerReplies : t.compilerReplies = s.compilerReplies) (replies : t.replies = s.replies) :
    ∃ entries, Effect a s t entries := by
  refine ⟨bytes.map fun byte => ⟨pipe, .harness, byte⟩, by rw [io]; rfl, Or.inr (by simp), by simp,
    by simp [compiling], Or.inr entered, ?_, Or.inl compilerCpu, Or.inl barrier, ?_, ?_, ?_,
    Or.inl compilerReplies, ?_⟩
  · intro w hw hpipe
    obtain ⟨_, _, rfl⟩ := List.mem_map.mp hw
    exact phase hpipe
  · intro w hw _
    obtain ⟨_, _, rfl⟩ := List.mem_map.mp hw
    exact target.imp_right fun h => h.imp_right fun h => ⟨h.1, ⟨before, living⟩, h.2⟩
  · intro e he
    exact absurd he (living e)
  · exact Or.inl ⟨startOffset, fun h => absurd h after, fun h => absurd h before⟩
  · refine Or.inr ⟨replies, by simp, ?_⟩
    rw [io, compilerReplies]
    rfl

/-- The bytes of a pipe are those of the two parts of the log. -/
theorem bytesOf_append (log entries : List Written) (pipe : PipeName) :
    bytesOf (log ++ entries) pipe = bytesOf log pipe ++ bytesOf entries pipe := by
  simp [bytesOf]

/-- A writer's bytes are those of the two parts of the log. -/
theorem bytesBy_append (log entries : List Written) (writer : Writer) (pipe : PipeName) :
    bytesBy (log ++ entries) writer pipe = bytesBy log writer pipe ++ bytesBy entries writer pipe := by
  simp [bytesBy, bytesOf]

/-- A pipe is empty when nobody wrote to it. -/
theorem bytesOf_eq_nil_iff {log : List Written} {pipe : PipeName} :
    bytesOf log pipe = [] ↔ ∀ w ∈ log, w.pipe ≠ pipe := by
  simp [bytesOf, List.filter_eq_nil_iff]

/-- A writer has no bytes in a pipe when it did not write to it. -/
theorem bytesBy_eq_nil_iff {log : List Written} {writer : Writer} {pipe : PipeName} :
    bytesBy log writer pipe = [] ↔ ∀ w ∈ log, w.pipe = pipe → w.writer ≠ writer := by
  simp only [bytesBy, bytesOf_eq_nil_iff, List.mem_filter, decide_eq_true_eq]
  exact ⟨fun h w hw hpipe hwriter => h w ⟨hw, hwriter⟩ hpipe, fun h w hw hpipe => h w hw.1 hpipe hw.2⟩

/-- All bytes of a pipe are those of its only writer. -/
theorem bytesBy_eq_bytesOf {log : List Written} {writer : Writer} {pipe : PipeName}
    (h : ∀ w ∈ log, w.pipe = pipe → w.writer = writer) : bytesBy log writer pipe = bytesOf log pipe := by
  simp only [bytesBy, bytesOf, List.filter_filter]
  congr 1
  apply List.filter_congr
  intro w hw
  simpa using h w hw

/-- What our code or a program writes is added to one pipe. -/
theorem bytesOf_emit (io : Streams) (writer : Writer) (pipe pipe' : PipeName) (bytes : Bytes) :
    bytesOf (io.emit writer pipe bytes).log pipe' =
      bytesOf io.log pipe' ++ if pipe = pipe' then bytes else [] := by
  rw [Streams.emit, bytesOf_append, List.append_cancel_left_eq]
  by_cases hpipe : pipe = pipe' <;> simp [bytesOf, List.filter_map, Function.comp_def, hpipe]

/-- A caller that holds only inherited pipes for writing writes as itself, and only to those. -/
theorem call_log (io : Streams) (writer : Writer) (table : FdTable) (stdin : Bytes) (c : Syscall)
    (holds : ∀ {n d p}, table n = some d → d.target = .pipe (p, .write) → (p, Side.write) ∈ inheritedWrites) :
    ∃ entries, (io.call writer table stdin c).1.log = io.log ++ entries ∧
      ∀ w ∈ entries, w.writer = writer ∧ (w.pipe, Side.write) ∈ inheritedWrites := by
  cases c with
  | write fd bytes =>
    simp only [Streams.call]
    split
    · rename_i p _ hfd
      refine ⟨bytes.map fun byte => ⟨p, writer, byte⟩, rfl, ?_⟩
      intro w hw
      obtain ⟨byte, _, rfl⟩ := List.mem_map.mp hw
      exact ⟨rfl, holds hfd rfl⟩
    · exact ⟨[], by simp, by simp⟩
  | read fd count =>
    simp only [Streams.call]
    split <;> exact ⟨[], by simp, by simp⟩

/-- A call moves the shared offset by what it returned. -/
theorem call_offset (io : Streams) (writer : Writer) (table : FdTable) (stdin : Bytes) (c : Syscall) :
    (io.call writer table stdin c).1.offset = io.offset + (io.call writer table stdin c).2.length := by
  cases c with
  | write fd bytes =>
    simp only [Streams.call]
    split <;> rfl
  | read fd count =>
    simp only [Streams.call]
    split <;> rfl

/-- The writing end of the barrier's pipe is not inherited. -/
theorem phase_not_inherited {w : Written} (h : (w.pipe, Side.write) ∈ inheritedWrites) : w.pipe ≠ .phase := by
  intro hpipe
  rw [hpipe] at h
  exact absurd h (by decide)

/-- Every step has its effect. -/
theorem step_effect {job : SandboxJob} {cached : Bool} {num : Numbering} {s t : State} {a : Action}
    (taken : step job cached num s a = some t) : ∃ entries, Effect a s t entries := by
  cases a with
  | compilerCall c =>
    simp only [step] at taken
    split at taken
    · rename_i hpc
      cases taken
      obtain ⟨entries, hlog, hentries⟩ := call_log s.io .compiler (compilerTable num) job.stdin c compilerTable_write
      refine ⟨entries, hlog, Or.inl ⟨⟨_, hpc⟩, fun w hw => (hentries w hw).1⟩, fun w hw _ => (hentries w hw).2,
        fun h => ⟨h, fun w hw => (hentries w hw).1⟩, Or.inr ⟨rfl, id⟩,
        fun w hw hpipe => absurd hpipe (phase_not_inherited (hentries w hw).2), Or.inl rfl, Or.inl rfl,
        ?_, fun _ => id, Or.inl ⟨rfl, id, Or.inl⟩, Or.inr ⟨_, hpc⟩, Or.inr ⟨rfl, ?_, ?_⟩⟩
      · intro w hw
        simp [(hentries w hw).1]
      · intro w hw
        simp [(hentries w hw).1]
      · rw [call_offset]
        simp
        omega
    · cases taken
  | programCall c =>
    simp only [step] at taken
    split at taken
    · rename_i hpc
      cases taken
      obtain ⟨entries, hlog, hentries⟩ := call_log s.io .program (programTable num) job.stdin c programTable_write
      refine ⟨entries, hlog, Or.inr ?_, fun w hw _ => (hentries w hw).2, by simp [hpc, Pc.compiling],
        Or.inr ⟨rfl, id⟩, fun w hw hpipe => absurd hpipe (phase_not_inherited (hentries w hw).2), Or.inl rfl,
        Or.inl rfl, ?_, fun _ => id, Or.inl ⟨rfl, id, Or.inl⟩, Or.inl rfl, Or.inl ⟨hpc, c, rfl⟩⟩
      · intro w hw
        simp [(hentries w hw).1]
      · intro w hw
        simp [(hentries w hw).1]
    · cases taken
  | subFail message =>
    simp only [step] at taken
    split at taken
    · rename_i hpc
      cases taken
      apply Effect.silent <;> simp [hpc, Pc.compiling, Pc.inCompilePhase]
    · rename_i hpc
      cases taken
      refine ⟨message.map fun byte => ⟨.compile, .compiler, byte⟩, rfl, Or.inl ⟨⟨_, hpc⟩, by simp⟩, ?_,
        by simp [hpc, Pc.compiling], Or.inr ⟨rfl, by simp [hpc, Pc.inCompilePhase]⟩, by simp, Or.inl rfl,
        Or.inl rfl, by simp, by simp [hpc], Or.inl ⟨rfl, by simp, by simp [hpc]⟩, Or.inl rfl,
        Or.inr ⟨rfl, by simp, rfl⟩⟩
      simp [inheritedWrites]
    · cases taken
  | fail message =>
    simp only [step] at taken
    split at taken
    all_goals rename_i hpc
    all_goals cases taken
    all_goals apply Effect.harnessWrite rfl <;> simp [hpc, Pc.compiling, Pc.inCompilePhase]
  | reap message =>
    simp only [step] at taken
    split at taken
    · rename_i hpc
      split at taken
      all_goals cases taken
      · apply Effect.silent <;> simp [hpc, Pc.compiling, Pc.inCompilePhase]
      · apply Effect.silent <;> simp [hpc, Pc.compiling, Pc.inCompilePhase]
      · apply Effect.harnessWrite rfl <;> simp [hpc, Pc.compiling, Pc.inCompilePhase]
    · cases taken
  | send count =>
    simp only [step] at taken
    split at taken
    · rename_i hpc
      split at taken
      all_goals cases taken
      · apply Effect.silent <;> simp [hpc, Pc.compiling, Pc.inCompilePhase]
      · apply Effect.harnessWrite rfl <;> simp [hpc, Pc.compiling, Pc.inCompilePhase]
    · cases taken
  | phaseWrite succeeds =>
    simp only [step] at taken
    split at taken
    · rename_i hpc
      cases taken
      apply Effect.harnessWrite rfl <;> simp [hpc, Pc.compiling, Pc.inCompilePhase]
    · cases taken
  | barrierFires readable wall =>
    simp only [step] at taken
    split at taken
    · rename_i byte _ _ hbytes
      cases taken
      have hmem : byte ∈ bytesOf s.io.log .phase := by simp [hbytes]
      obtain ⟨w, hw, _⟩ := List.mem_map.mp hmem
      have hphase : w ∈ s.io.log ∧ w.pipe = .phase := by simpa using hw
      exact ⟨[], by simp, Or.inr (by simp), by simp, fun h => ⟨h, by simp⟩, Or.inr ⟨rfl, id⟩, by simp, Or.inl rfl,
        Or.inr (Or.inr ⟨readable, wall, rfl, rfl, w, hphase⟩), by simp, fun _ => id, Or.inl ⟨rfl, id, Or.inl⟩,
        Or.inl rfl, Or.inr ⟨rfl, by simp, rfl⟩⟩
    · cases taken
  | oomKill victim =>
    simp only [step] at taken
    split at taken
    all_goals cases taken
    all_goals apply Effect.silent <;> (try simp only [Pc.kill_compiling, Pc.kill_inCompilePhase]) <;>
      simp_all [Pc.compiling, Pc.inCompilePhase, Pc.kill_isEnded]
  | wallKill =>
    simp only [step] at taken
    split at taken
    · cases taken
      apply Effect.silent <;> (try simp only [Pc.kill_compiling, Pc.kill_inCompilePhase]) <;>
        simp_all [Pc.kill_isEnded]
    · cases taken
  | _ =>
    simp only [step] at taken
    repeat' split at taken
    all_goals cases taken
    all_goals apply Effect.silent <;> simp_all [Pc.compiling, Pc.inCompilePhase]

/-- The order of the writers along every run. -/
structure Inv (s : State) : Prop where
  ordered : ∃ compiled others, s.io.log = compiled ++ others ∧
    (∀ w ∈ compiled, w.writer = .compiler) ∧ ∀ w ∈ others, w.writer ≠ .compiler
  compiling : s.pc.compiling = true → ∀ w ∈ s.io.log, w.writer = .compiler
  inherited : ∀ w ∈ s.io.log, w.writer ≠ .harness → (w.pipe, Side.write) ∈ inheritedWrites
  entered : s.pc.inCompilePhase = true → s.entered = true
  untouched : s.entered = false → s.compilerCpu = 0 ∧ s.compilerReplies = [] ∧
    ∀ w ∈ s.io.log, w.writer ≠ .compiler ∧ w.pipe ≠ .phase
  sampled : ∀ readable cpu wall, s.barrier = .fired readable cpu wall →
    (∃ w ∈ s.io.log, w.pipe = .phase) ∧ if readable then s.compilerCpu ≤ cpu else cpu = 0
  harness : ∀ w ∈ s.io.log, w.writer = .harness →
    w.pipe = .artifact ∨ w.pipe = .phase ∨ (w.pipe = .stderr ∧ s.startOffset = none ∧ ∃ e, s.pc = .ended e)
  started : s.startOffset ≠ none → s.pc = .running ∨ ∃ e, s.pc = .ended e
  running : s.pc = .running → s.startOffset ≠ none
  idle : s.startOffset = none → s.replies = [] ∧ ∀ w ∈ s.io.log, w.writer ≠ .program
  consumed : s.startOffset.getD s.io.offset = s.compilerReplies.flatten.length

/-- The invariant holds before the first step. -/
theorem inv_init : Inv State.init where
  ordered := ⟨[], [], rfl, by simp, by simp⟩
  compiling := by simp [State.init]
  inherited := by simp [State.init]
  entered := nofun
  untouched := by simp [State.init]
  sampled := nofun
  harness := by simp [State.init]
  started := by simp [State.init]
  running := nofun
  idle := by simp [State.init]
  consumed := rfl

/-- While a sub-child may exist, no barrier byte was written. -/
theorem Inv.no_phase_byte {s : State} (h : Inv s) (hcompiling : s.pc.compiling = true) :
    ∀ w ∈ s.io.log, w.pipe ≠ .phase := by
  intro w hw
  exact phase_not_inherited (h.inherited w hw (by simp [h.compiling hcompiling w hw]))

section

variable {a : Action} {s t : State} {entries : List Written}

/-- What holds of every byte of the log and of the bytes of a step holds of every byte after it. -/
theorem Effect.forall_log {P : Written → Prop} (effect : Effect a s t entries) (hold : ∀ w ∈ s.io.log, P w)
    (hnew : ∀ w ∈ entries, P w) : ∀ w ∈ t.io.log, P w := by
  intro w hw
  rw [effect.log] at hw
  rcases List.mem_append.mp hw with hw | hw
  · exact hold w hw
  · exact hnew w hw

/-- A compile phase that was entered stays entered. -/
theorem Effect.keeps_entered (effect : Effect a s t entries) (hentered : s.entered = true) : t.entered = true := by
  rcases effect.entered with ht | ⟨hsame, _⟩
  · exact ht
  · rw [hsame, hentered]

/-- PID 1 waits for a sub-child only inside the compile phase. -/
theorem Inv.of_compileWait (h : Inv s) (hwaiting : ∃ sub, s.pc = .compileWait sub) :
    s.pc.compiling = true ∧ s.entered = true := by
  obtain ⟨sub, hpc⟩ := hwaiting
  exact ⟨by rw [hpc]; rfl, h.entered (by rw [hpc]; rfl)⟩

/-- Before the program starts PID 1 neither is the program nor was it. -/
theorem Inv.not_started (h : Inv s) (hpc : s.pc ≠ .running) (hliving : ∀ e, s.pc ≠ .ended e) :
    s.startOffset = none := by
  by_contra hsome
  rcases h.started hsome with hrunning | ⟨e, hended⟩
  · exact hpc hrunning
  · exact hliving e hended

/-- Nobody but a living sub-child adds bytes of the compiler. -/
theorem Inv.ordered_step (h : Inv s) (effect : Effect a s t entries) :
    ∃ compiled others, t.io.log = compiled ++ others ∧
      (∀ w ∈ compiled, w.writer = .compiler) ∧ ∀ w ∈ others, w.writer ≠ .compiler := by
  rcases effect.writers with ⟨hwaiting, hnew⟩ | hnew
  · -- the living sub-child writes, and before it nobody else did
    refine ⟨t.io.log, [], by rw [List.append_nil], ?_, by simp⟩
    exact effect.forall_log (h.compiling (h.of_compileWait hwaiting).1) hnew
  · obtain ⟨compiled, others, hlog, hcompiled, hothers⟩ := h.ordered
    refine ⟨compiled, others ++ entries, by rw [effect.log, hlog, List.append_assoc], hcompiled, ?_⟩
    intro w hw
    rcases List.mem_append.mp hw with hw | hw
    · exact hothers w hw
    · exact hnew w hw

/-- Outside the compile phase no step does anything for the compiler. -/
theorem Inv.untouched_step (h : Inv s) (effect : Effect a s t entries) (hnot : t.entered = false) :
    t.compilerCpu = 0 ∧ t.compilerReplies = [] ∧ ∀ w ∈ t.io.log, w.writer ≠ .compiler ∧ w.pipe ≠ .phase := by
  have hbefore : s.entered = false := by
    by_contra hentered
    rw [effect.keeps_entered (Bool.eq_true_of_not_eq_false hentered)] at hnot
    cases hnot
  have hwaiting : ¬ ∃ sub, s.pc = .compileWait sub := by
    intro hwaiting
    rw [(h.of_compileWait hwaiting).2] at hbefore
    cases hbefore
  have hphase : s.pc ≠ .phaseWrite := by
    intro hpc
    rw [h.entered (by rw [hpc]; rfl)] at hbefore
    cases hbefore
  obtain ⟨hcpu, hreplies, hold⟩ := h.untouched hbefore
  refine ⟨?_, ?_, effect.forall_log hold ?_⟩
  · rw [effect.compilerCpu.resolve_right hwaiting, hcpu]
  · rw [effect.compilerReplies.resolve_right hwaiting, hreplies]
  · intro w hw
    have hwriter : w.writer ≠ .compiler := by
      rcases effect.writers with ⟨hpc, _⟩ | hnew
      · exact absurd hpc hwaiting
      · exact hnew w hw
    exact ⟨hwriter, fun hpipe => hphase (effect.phase w hw hpipe)⟩

/-- After the sample nothing is charged to the compiler. -/
theorem Inv.sampled_step (h : Inv s) (effect : Effect a s t entries) {readable : Bool} {cpu wall : ℕ}
    (hfired : t.barrier = .fired readable cpu wall) :
    (∃ w ∈ t.io.log, w.pipe = .phase) ∧ if readable then t.compilerCpu ≤ cpu else cpu = 0 := by
  have kept {w : Written} (hw : w ∈ s.io.log) : w ∈ t.io.log := by
    rw [effect.log]
    exact List.mem_append_left _ hw
  rcases effect.barrier with hsame | hfailed | ⟨readable', wall', hnow, hcpu, w, hw, hpipe⟩
  · obtain ⟨⟨w, hw, hpipe⟩, hsample⟩ := h.sampled readable cpu wall (hsame ▸ hfired)
    refine ⟨⟨w, kept hw, hpipe⟩, ?_⟩
    rcases effect.compilerCpu with hcpu | hwaiting
    · rw [hcpu]
      exact hsample
    · exact absurd hpipe (h.no_phase_byte (h.of_compileWait hwaiting).1 w hw)
  · rw [hfailed] at hfired
    cases hfired
  · rw [hnow] at hfired
    cases hfired
    refine ⟨⟨w, kept hw, hpipe⟩, ?_⟩
    rw [hcpu]
    cases readable with
    | true => exact Nat.le_add_right _ _
    | false => rfl

/-- Our code writes to the error stream only where the program will never start. -/
theorem Inv.harness_step (h : Inv s) (effect : Effect a s t entries) :
    ∀ w ∈ t.io.log, w.writer = .harness →
      w.pipe = .artifact ∨ w.pipe = .phase ∨ (w.pipe = .stderr ∧ t.startOffset = none ∧ ∃ e, t.pc = .ended e) := by
  have unstarted {e : ProcessEnd} (hpc : t.pc = .ended e) (hnone : s.startOffset = none) : t.startOffset = none := by
    rcases effect.start with ⟨hsame, _⟩ | ⟨_, hrunning, _⟩
    · rw [hsame, hnone]
    · rw [hpc] at hrunning
      cases hrunning
  refine effect.forall_log ?_ ?_
  · intro w hw hwriter
    rcases h.harness w hw hwriter with hpipe | hpipe | ⟨hpipe, hnone, e, hpc⟩
    · exact Or.inl hpipe
    · exact Or.inr (Or.inl hpipe)
    · have hended := effect.final e hpc
      exact Or.inr (Or.inr ⟨hpipe, unstarted hended hnone, e, hended⟩)
  · intro w hw hwriter
    rcases effect.harness w hw hwriter with hpipe | hpipe | ⟨hpipe, ⟨hrunning, hliving⟩, e, hpc⟩
    · exact Or.inl hpipe
    · exact Or.inr (Or.inl hpipe)
    · exact Or.inr (Or.inr ⟨hpipe, unstarted hpc (h.not_started hrunning hliving), e, hpc⟩)

/-- A program that started runs or has ended. -/
theorem Inv.started_step (h : Inv s) (effect : Effect a s t entries) (hsome : t.startOffset ≠ none) :
    t.pc = .running ∨ ∃ e, t.pc = .ended e := by
  rcases effect.start with ⟨hsame, _, hrunning⟩ | ⟨_, hpc, _⟩
  · rw [hsame] at hsome
    rcases h.started hsome with hpc | ⟨e, hpc⟩
    · exact hrunning hpc
    · exact Or.inr ⟨e, effect.final e hpc⟩
  · exact Or.inl hpc

/-- Before it starts the program has done nothing. -/
theorem Inv.idle_step (h : Inv s) (effect : Effect a s t entries) (hnone : t.startOffset = none) :
    t.replies = [] ∧ ∀ w ∈ t.io.log, w.writer ≠ .program := by
  rcases effect.start with ⟨hsame, _⟩ | ⟨_, _, hsome, _⟩
  · rw [hsame] at hnone
    obtain ⟨hreplies, hold⟩ := h.idle hnone
    rcases effect.program with ⟨hpc, _⟩ | ⟨hkept, hnew, _⟩
    · exact absurd hnone (h.running hpc)
    · exact ⟨by rw [hkept, hreplies], effect.forall_log hold hnew⟩
  · rw [hsome] at hnone
    cases hnone

/-- No sub-child lives beside the program, so the compiler's reads are over. -/
theorem Inv.compilerReplies_kept (h : Inv s) (effect : Effect a s t entries) (hstarted : s.startOffset ≠ none) :
    t.compilerReplies = s.compilerReplies := by
  apply effect.compilerReplies.resolve_right
  intro hwaiting
  obtain ⟨sub, hpc⟩ := hwaiting
  exact hstarted (h.not_started (by simp [hpc]) (by simp [hpc]))

/-- What was read before the program started was read by the compiler. -/
theorem Inv.consumed_step (h : Inv s) (effect : Effect a s t entries) :
    t.startOffset.getD t.io.offset = t.compilerReplies.flatten.length := by
  have hconsumed := h.consumed
  rcases effect.start with ⟨hsame, _⟩ | ⟨hexec, _, hsome, hio⟩
  · rw [hsame]
    by_cases hnone : s.startOffset = none
    · rw [hnone, Option.getD_none] at hconsumed ⊢
      rcases effect.program with ⟨hpc, _⟩ | ⟨_, _, hmoved⟩
      · exact absurd hnone (h.running hpc)
      · omega
    · obtain ⟨k, hk⟩ := Option.ne_none_iff_exists'.mp hnone
      rw [hk, Option.getD_some] at hconsumed ⊢
      rw [h.compilerReplies_kept effect hnone, hconsumed]
  · rw [h.not_started (by simp [hexec]) (by simp [hexec]), Option.getD_none] at hconsumed
    rcases effect.program with ⟨hpc, _⟩ | ⟨_, _, hmoved⟩
    · rw [hexec] at hpc
      cases hpc
    · rw [hsome, Option.getD_some]
      rw [hio] at hmoved
      omega

end

/-- One step preserves the invariant. -/
theorem step_inv {job : SandboxJob} {cached : Bool} {num : Numbering} (s : State) (a : Action) (t : State)
    (h : Inv s) (taken : step job cached num s a = some t) : Inv t := by
  obtain ⟨entries, effect⟩ := step_effect taken
  constructor
  case ordered => exact h.ordered_step effect
  case compiling =>
    intro hcompiling
    obtain ⟨hbefore, hnew⟩ := effect.compiling hcompiling
    exact effect.forall_log (h.compiling hbefore) hnew
  case inherited => exact effect.forall_log h.inherited effect.inherited
  case entered =>
    intro hphase
    rcases effect.entered with hentered | ⟨hsame, hbefore⟩
    · exact hentered
    · rw [hsame]
      exact h.entered (hbefore hphase)
  case untouched => exact h.untouched_step effect
  case sampled =>
    intro readable cpu wall hfired
    exact h.sampled_step effect hfired
  case harness => exact h.harness_step effect
  case started => exact h.started_step effect
  case running =>
    intro hpc
    rcases effect.start with ⟨hsame, hbefore, _⟩ | ⟨_, _, hsome, _⟩
    · rw [hsame]
      exact h.running (hbefore hpc)
    · simp [hsome]
  case idle => exact h.idle_step effect
  case consumed => exact h.consumed_step effect

/-- Every reachable state keeps the order of the writers. -/
theorem reachable_inv {job : SandboxJob} {cached : Bool} {num : Numbering} {s : State}
    (reached : Reachable (step job cached num) State.init s) : Inv s :=
  reached.invariant Inv inv_init fun s a t h _ taken => step_inv s a t h taken

/-- A pipe our code never writes to holds the bytes of the compiler, then those of the program. -/
theorem Inv.bytesOf_eq {s : State} (h : Inv s) {pipe : PipeName}
    (hharness : ∀ w ∈ s.io.log, w.pipe = pipe → w.writer ≠ .harness) :
    bytesOf s.io.log pipe = bytesBy s.io.log .compiler pipe ++ bytesBy s.io.log .program pipe := by
  obtain ⟨compiled, others, hlog, hcompiled, hothers⟩ := h.ordered
  have hfirst : bytesBy compiled .compiler pipe = bytesOf compiled pipe :=
    bytesBy_eq_bytesOf fun w hw _ => hcompiled w hw
  have hnone : bytesBy compiled .program pipe = [] :=
    bytesBy_eq_nil_iff.mpr fun w hw _ => by rw [hcompiled w hw]; decide
  have hnot : bytesBy others .compiler pipe = [] := bytesBy_eq_nil_iff.mpr fun w hw _ => hothers w hw
  have hrest : bytesBy others .program pipe = bytesOf others pipe := by
    refine bytesBy_eq_bytesOf fun w hw hpipe => ?_
    have hours := hharness w (by rw [hlog]; exact List.mem_append_right _ hw) hpipe
    cases hwriter : w.writer with
    | harness => exact absurd hwriter hours
    | compiler => exact absurd hwriter (hothers w hw)
    | program => rfl
  rw [hlog, bytesOf_append, bytesBy_append, bytesBy_append, hfirst, hnone, hnot, hrest, List.append_nil,
    List.nil_append]

/-- Only a job that compiles enters the compile phase. -/
theorem entered_willCompile {job : SandboxJob} {cached : Bool} {num : Numbering} {s : State}
    (reached : Reachable (step job cached num) State.init s) (hentered : s.entered = true) :
    job.language.willCompile cached = true := by
  refine reached.invariant (fun s => s.entered = true → job.language.willCompile cached = true) nofun ?_ hentered
  intro s a t hs _ taken
  cases a with
  | setupDone =>
    simp only [step] at taken
    split at taken
    · split at taken
      all_goals cases taken
      · rename_i hphase
        exact fun _ => willCompile_of_compilePhase hphase
      · exact hs
    · cases taken
  | _ =>
    simp only [step] at taken
    repeat' split at taken
    all_goals cases taken
    all_goals exact hs

end ZeroCode.Sandbox.Phases
