import ZeroCode.Sandbox.Placeholders
import ZeroCode.Sandbox.TokenResources

/-!
# The three compile decisions

Whether a job is compiled is decided three times: by `execute`, which raises the ceilings of
the cgroup for the compiler; by `run`, which sets the wall budgets; and by the child, which
enters the compile phase and fires the barrier at which the ceilings come down. The first two
look at the command of the language, the child at what is left of it as an argument vector.
-/

namespace ZeroCode.Sandbox.CompileDecision

open ZeroCode.Core ZeroCode.Foundation TokenResources

/-- The decision of `execute`. -/
def executeWillCompile (job : SandboxJob) (hasCachedBinary : Bool) : Bool :=
  (job.language.compileCmd.any fun c => !c.isEmpty) && !hasCachedBinary

/-- The decision of `run`. -/
def runWillCompile (spec : LanguageSpec) (hasCachedBinary : Bool) : Bool :=
  (spec.compileCmd.any fun c => !c.isEmpty) && !hasCachedBinary

/-- The decision of the child. -/
def childCompiles (spec : LanguageSpec) (limits : ResourceLimits) (hasCachedBinary : Bool) : Bool :=
  (compilePhase (buildCompileArgv spec limits) hasCachedBinary).isSome

/-- All three decide alike. -/
def DecideAlike (job : SandboxJob) (hasCachedBinary : Bool) : Prop :=
  executeWillCompile job hasCachedBinary = runWillCompile job.language hasCachedBinary ∧
    runWillCompile job.language hasCachedBinary = childCompiles job.language job.limits hasCachedBinary

/-- A job to be compiled has a string in its command that can be passed on. -/
def HasArgument (job : SandboxJob) (hasCachedBinary : Bool) : Prop :=
  ∀ cmd, job.language.compileCmd = some cmd → cmd ≠ [] → hasCachedBinary = false →
    ∃ s ∈ cmd, Char.ofNat 0 ∉ s.toList

/-- The ceilings of a cgroup on memory and processes. -/
structure Ceilings where
  memoryMb : ℕ
  maxPids : ℕ
  deriving DecidableEq, Repr

/-- The ceilings under these limits. -/
def ceilingsOf (limits : ResourceLimits) : Ceilings := ⟨limits.memoryMb, limits.maxPids⟩

/-- What a read of one byte returns. -/
inductive ByteRead
  | byte
  | eof
  | failed
  deriving DecidableEq, Repr

/-- Where PID 1 of the sandbox is. -/
inductive ChildPc
  | settingUp
  | compiling
  | signalling
  | awaiting
  | execing
  | executed
  | ended
  deriving DecidableEq, Repr

/-- Where the barrier thread is. -/
inductive BarrierPc
  | reading
  | loweringMemory
  | loweringPids
  | acking
  | sampling
  | returned
  deriving DecidableEq, Repr

/-- The two sides of the barrier, the bytes between them, and the cgroup. The last field only records the ceilings
under which the program was executed. -/
structure State where
  child : ChildPc
  barrier : BarrierPc
  phase : Bool
  proceed : Bool
  cgroup : Ceilings
  executed : Option Ceilings
  deriving DecidableEq, Repr

/-- A step of the child or of the barrier thread. -/
inductive Action
  | setupDone
  | compileEnds (passed : Bool)
  | signal (ok : Bool)
  | readAck (reply : ByteRead)
  | execRun (ok : Bool)
  | dies
  | readPhase (reply : ByteRead)
  | setMemoryMax (ok : Bool)
  | setPidsMax (ok : Bool)
  | ack (ok : Bool)
  | runDone
  deriving DecidableEq, Repr

/-- The child has no more use of its pipes. -/
def ChildPc.isGone : ChildPc → Bool
  | .executed | .ended => true
  | _ => false

section Job

variable (job : SandboxJob) (hasCachedBinary : Bool)

/-- One step. A failed write or read of the barrier is passed over, and so is a failed write to the cgroup. -/
def State.step (s : State) : Action → Option State
  | .setupDone =>
    match s.child with
    | .settingUp =>
      some { s with
        child := if childCompiles job.language job.limits hasCachedBinary then .compiling else .execing }
    | _ => none
  | .compileEnds passed =>
    match s.child with
    | .compiling => some { s with child := if passed then .signalling else .ended }
    | _ => none
  | .signal ok =>
    match s.child with
    | .signalling => some { s with child := .awaiting, phase := ok }
    | _ => none
  | .readAck reply =>
    match s.child, reply with
    | .awaiting, .byte => if s.proceed then some { s with child := .execing, proceed := false } else none
    | .awaiting, .eof => if s.barrier = .returned ∧ s.proceed = false then some { s with child := .execing } else none
    | .awaiting, .failed => some { s with child := .execing }
    | _, _ => none
  | .execRun ok =>
    match s.child with
    | .execing =>
      if ok then
        if buildArgv job.language job.limits = [] then none
        else some { s with child := .executed, executed := some s.cgroup }
      else some { s with child := .ended }
    | _ => none
  | .dies => if s.child = .executed then none else some { s with child := .ended }
  | .readPhase reply =>
    match s.barrier, reply with
    | .reading, .byte => if s.phase then some { s with barrier := .loweringMemory, phase := false } else none
    | .reading, .eof => if s.child.isGone && !s.phase then some { s with barrier := .returned } else none
    | .reading, .failed => some { s with barrier := .returned }
    | _, _ => none
  | .setMemoryMax ok =>
    match s.barrier with
    | .loweringMemory =>
      some { s with
        barrier := .loweringPids
        cgroup := if ok then { s.cgroup with memoryMb := job.limits.memoryMb } else s.cgroup }
    | _ => none
  | .setPidsMax ok =>
    match s.barrier with
    | .loweringPids =>
      some { s with
        barrier := .acking
        cgroup := if ok then { s.cgroup with maxPids := job.limits.maxPids } else s.cgroup }
    | _ => none
  | .ack ok =>
    match s.barrier with
    | .acking => some { s with barrier := .sampling, proceed := ok }
    | _ => none
  | .runDone => if s.barrier = .sampling then some { s with barrier := .returned } else none

/-- The cgroup was created, and the child forked. -/
def State.init : State where
  child := .settingUp
  barrier := .reading
  phase := false
  proceed := false
  cgroup := ceilingsOf (cgroupLimits job hasCachedBinary)
  executed := none

/-- What a step does, by the branch it takes. -/
inductive Effect (s : State) : Action → State → Prop
  | setUp (hchild : s.child = .settingUp) : Effect s .setupDone
      { s with child := if childCompiles job.language job.limits hasCachedBinary then .compiling else .execing }
  | compiled (passed : Bool) (hchild : s.child = .compiling) :
      Effect s (.compileEnds passed) { s with child := if passed then .signalling else .ended }
  | signalled (ok : Bool) (hchild : s.child = .signalling) :
      Effect s (.signal ok) { s with child := .awaiting, phase := ok }
  | acknowledged (hchild : s.child = .awaiting) (hproceed : s.proceed = true) :
      Effect s (.readAck .byte) { s with child := .execing, proceed := false }
  | unanswered (hchild : s.child = .awaiting) (hbarrier : s.barrier = .returned) :
      Effect s (.readAck .eof) { s with child := .execing }
  | interrupted (hchild : s.child = .awaiting) : Effect s (.readAck .failed) { s with child := .execing }
  | executed (hchild : s.child = .execing) :
      Effect s (.execRun true) { s with child := .executed, executed := some s.cgroup }
  | notExecuted (hchild : s.child = .execing) : Effect s (.execRun false) { s with child := .ended }
  | died (hchild : s.child ≠ .executed) : Effect s .dies { s with child := .ended }
  | told (hbarrier : s.barrier = .reading) :
      Effect s (.readPhase .byte) { s with barrier := .loweringMemory, phase := false }
  | deserted (hbarrier : s.barrier = .reading) (hgone : s.child.isGone = true) :
      Effect s (.readPhase .eof) { s with barrier := .returned }
  | deafened (hbarrier : s.barrier = .reading) : Effect s (.readPhase .failed) { s with barrier := .returned }
  | memory (ok : Bool) (hbarrier : s.barrier = .loweringMemory) : Effect s (.setMemoryMax ok)
      { s with
        barrier := .loweringPids
        cgroup := if ok then { s.cgroup with memoryMb := job.limits.memoryMb } else s.cgroup }
  | pids (ok : Bool) (hbarrier : s.barrier = .loweringPids) : Effect s (.setPidsMax ok)
      { s with
        barrier := .acking
        cgroup := if ok then { s.cgroup with maxPids := job.limits.maxPids } else s.cgroup }
  | acked (ok : Bool) (hbarrier : s.barrier = .acking) :
      Effect s (.ack ok) { s with barrier := .sampling, proceed := ok }
  | done (hbarrier : s.barrier = .sampling) : Effect s .runDone { s with barrier := .returned }

/-- The cgroup has the ceilings of the run. -/
def State.Lowered (s : State) : Prop := s.cgroup = ceilingsOf job.limits

/-- Whoever lets the child go on has lowered the ceilings, if they were raised at all. -/
structure CeilingInv (s : State) : Prop where
  uncompiled : executeWillCompile job hasCachedBinary = false → s.Lowered job
  execing : s.child = .execing → s.Lowered job
  executed : ∀ ceilings, s.executed = some ceilings → ceilings = ceilingsOf job.limits
  proceed : s.proceed = true → s.Lowered job
  memory : s.barrier = .loweringPids → s.cgroup.memoryMb = job.limits.memoryMb
  acking : s.barrier = .acking ∨ s.barrier = .sampling → s.Lowered job
  returned : s.barrier = .returned → s.child.isGone = true ∨ s.Lowered job

variable {job hasCachedBinary}

/-- Every step takes one of the branches. -/
theorem effect_of_step {s t : State} {a : Action} (hstep : s.step job hasCachedBinary a = some t) :
    Effect job hasCachedBinary s a t := by
  cases a with
  | setupDone =>
    simp only [State.step] at hstep
    split at hstep <;> cases hstep
    exact .setUp ‹_›
  | compileEnds passed =>
    simp only [State.step] at hstep
    split at hstep <;> cases hstep
    exact .compiled passed ‹_›
  | signal ok =>
    simp only [State.step] at hstep
    split at hstep <;> cases hstep
    exact .signalled ok ‹_›
  | readAck reply =>
    simp only [State.step] at hstep
    split at hstep
    · obtain ⟨hproceed, hstep⟩ := Option.ite_none_right_eq_some.mp hstep
      cases hstep
      exact .acknowledged ‹_› hproceed
    · obtain ⟨hbarrier, hstep⟩ := Option.ite_none_right_eq_some.mp hstep
      cases hstep
      exact .unanswered ‹_› hbarrier.1
    · cases hstep
      exact .interrupted ‹_›
    · cases hstep
  | execRun ok =>
    simp only [State.step] at hstep
    split at hstep
    · cases ok with
      | true =>
        obtain ⟨_, hstep⟩ := Option.ite_none_left_eq_some.mp hstep
        cases hstep
        exact .executed ‹_›
      | false =>
        cases hstep
        exact .notExecuted ‹_›
    · cases hstep
  | dies =>
    obtain ⟨hchild, hstep⟩ := Option.ite_none_left_eq_some.mp hstep
    cases hstep
    exact .died hchild
  | readPhase reply =>
    simp only [State.step] at hstep
    split at hstep
    · obtain ⟨_, hstep⟩ := Option.ite_none_right_eq_some.mp hstep
      cases hstep
      exact .told ‹_›
    · obtain ⟨hgone, hstep⟩ := Option.ite_none_right_eq_some.mp hstep
      cases hstep
      exact .deserted ‹_› (Bool.and_eq_true_iff.mp hgone).1
    · cases hstep
      exact .deafened ‹_›
    · cases hstep
  | setMemoryMax ok =>
    simp only [State.step] at hstep
    split at hstep <;> cases hstep
    exact .memory ok ‹_›
  | setPidsMax ok =>
    simp only [State.step] at hstep
    split at hstep <;> cases hstep
    exact .pids ok ‹_›
  | ack ok =>
    simp only [State.step] at hstep
    split at hstep <;> cases hstep
    exact .acked ok ‹_›
  | runDone =>
    obtain ⟨hbarrier, hstep⟩ := Option.ite_none_right_eq_some.mp hstep
    cases hstep
    exact .done hbarrier

end Job

/-- The calls at the barrier take effect. -/
def Action.TakesEffect : Action → Prop
  | .signal ok | .setMemoryMax ok | .setPidsMax ok | .ack ok => ok = true
  | .readAck reply | .readPhase reply => reply ≠ .failed
  | .setupDone | .compileEnds _ | .execRun _ | .dies | .runDone => True

/-- The decision of `execute` is the one the ceilings depend on. -/
theorem executeWillCompile_eq (job : SandboxJob) (hasCachedBinary : Bool) :
    executeWillCompile job hasCachedBinary = job.language.willCompile hasCachedBinary := by
  unfold executeWillCompile LanguageSpec.willCompile
  cases job.language.compileCmd <;> rfl

/-- `run` compiles what has a command and no cached artifact. -/
theorem runWillCompile_iff (spec : LanguageSpec) (hasCachedBinary : Bool) :
    runWillCompile spec hasCachedBinary = true ↔
      hasCachedBinary = false ∧ ∃ cmd, spec.compileCmd = some cmd ∧ cmd ≠ [] := by
  unfold runWillCompile
  cases spec.compileCmd with
  | none => simp
  | some cmd => simp [and_comm]

/-- A string of a command is passed on exactly if it has no NUL. -/
theorem cstring_isSome_iff (s : String) (limits : ResourceLimits) :
    (∃ c, CString.new (substituteLimits s limits) = some c) ↔ Char.ofNat 0 ∉ s.toList := by
  rw [← nul_mem_substituteLimits_iff s limits]
  unfold CString.new
  split
  · rename_i hnul
    simp [hnul]
  · rename_i hnul
    simp [hnul]

/-- The child compiles what has a string to be passed on and no cached artifact. -/
theorem childCompiles_iff (spec : LanguageSpec) (limits : ResourceLimits) (hasCachedBinary : Bool) :
    childCompiles spec limits hasCachedBinary = true ↔
      hasCachedBinary = false ∧ ∃ cmd, spec.compileCmd = some cmd ∧ ∃ s ∈ cmd, Char.ofNat 0 ∉ s.toList := by
  unfold childCompiles buildCompileArgv
  cases spec.compileCmd with
  | none => simp [compilePhase]
  | some cmd =>
    by_cases hempty : cmd = []
    · simp [hempty, compilePhase]
    · have hargv : (cmd.filterMap fun s => CString.new (substituteLimits s limits)) ≠ [] ↔
          ∃ s ∈ cmd, Char.ofNat 0 ∉ s.toList := by
        rw [Ne, List.filterMap_eq_nil_iff]
        simp only [← cstring_isSome_iff _ limits, not_forall, ← Option.ne_none_iff_exists', exists_prop]
      simp [compilePhase, hempty, ← hargv, and_comm]

/-- The decisions are alike exactly if a job to be compiled has a string to be passed on. -/
theorem decideAlike_iff (job : SandboxJob) (hasCachedBinary : Bool) :
    DecideAlike job hasCachedBinary ↔ HasArgument job hasCachedBinary := by
  have hrun := runWillCompile_iff job.language hasCachedBinary
  have hchild := childCompiles_iff job.language job.limits hasCachedBinary
  constructor
  · rintro ⟨_, halike⟩ cmd hcmd hne hcached
    rw [halike, hchild] at hrun
    obtain ⟨_, cmd', hcmd', hargument⟩ := hrun.mpr ⟨hcached, cmd, hcmd, hne⟩
    cases hcmd.symm.trans hcmd'
    exact hargument
  · intro hargument
    refine ⟨rfl, ?_⟩
    rw [Bool.eq_iff_iff, hrun, hchild]
    refine and_congr_right fun hcached => exists_congr fun cmd => and_congr_right fun hcmd => ?_
    exact ⟨fun hne => hargument cmd hcmd hne hcached, fun ⟨s, hs, _⟩ => List.ne_nil_of_mem hs⟩

/-- Without a compile phase the cgroup has the ceilings of the run from the start. -/
theorem CeilingInv.init (job : SandboxJob) (hasCachedBinary : Bool) :
    CeilingInv job hasCachedBinary (.init job hasCachedBinary) where
  uncompiled h := by
    rw [executeWillCompile_eq] at h
    rw [State.Lowered, State.init, cgroupLimits, h]
    rfl
  execing h := by cases h
  executed ceilings h := by cases h
  proceed h := by cases h
  memory h := by cases h
  acking h := by rcases h with h | h <;> cases h
  returned h := by cases h

/-- A step of the child keeps the invariant if it executes nothing under raised ceilings. -/
theorem CeilingInv.setChild {job : SandboxJob} {hasCachedBinary : Bool} {s : State}
    (hinv : CeilingInv job hasCachedBinary s) {child : ChildPc} {phase proceed : Bool}
    (hexecing : child = .execing → s.Lowered job) (hgone : s.child.isGone = true → child.isGone = true)
    (hproceed : proceed = true → s.proceed = true) :
    CeilingInv job hasCachedBinary { s with child := child, phase := phase, proceed := proceed } where
  uncompiled := hinv.uncompiled
  execing := hexecing
  executed := hinv.executed
  proceed h := hinv.proceed (hproceed h)
  memory := hinv.memory
  acking := hinv.acking
  returned h := (hinv.returned h).imp hgone id

/-- Every step whose call takes effect keeps the invariant. -/
theorem CeilingInv.of_step {job : SandboxJob} {hasCachedBinary : Bool} (halike : DecideAlike job hasCachedBinary)
    {s t : State} {a : Action} (hinv : CeilingInv job hasCachedBinary s) (heffect : a.TakesEffect)
    (hstep : s.step job hasCachedBinary a = some t) : CeilingInv job hasCachedBinary t := by
  cases effect_of_step hstep with
  | setUp hchild =>
    refine hinv.setChild (fun hexecing => ?_) (by simp [hchild, ChildPc.isGone]) id
    have hplain : childCompiles job.language job.limits hasCachedBinary = false := by
      by_contra hcompiles
      rw [if_pos (Bool.eq_true_of_not_eq_false hcompiles)] at hexecing
      cases hexecing
    exact hinv.uncompiled (halike.1.trans (halike.2.trans hplain))
  | compiled passed hchild =>
    exact hinv.setChild (by cases passed <;> simp) (by simp [hchild, ChildPc.isGone]) id
  | signalled ok hchild => exact hinv.setChild (by simp) (by simp [hchild, ChildPc.isGone]) id
  | acknowledged hchild hproceed =>
    exact hinv.setChild (fun _ => hinv.proceed hproceed) (by simp [hchild, ChildPc.isGone]) (by simp)
  | unanswered hchild hbarrier =>
    refine hinv.setChild (fun _ => ?_) (by simp [hchild, ChildPc.isGone]) id
    exact (hinv.returned hbarrier).resolve_left (by simp [hchild, ChildPc.isGone])
  | interrupted hchild => exact absurd rfl heffect
  | executed hchild =>
    have hset := @hinv.setChild _ _ _ .executed s.phase s.proceed (by simp) (by simp [hchild, ChildPc.isGone]) id
    exact { hset with executed := fun ceilings h => (Option.some.inj h).symm.trans (hinv.execing hchild) }
  | notExecuted hchild => exact hinv.setChild (by simp) (by simp [hchild, ChildPc.isGone]) id
  | died hchild => exact hinv.setChild (by simp) (fun _ => rfl) id
  | told hbarrier =>
    exact { hinv with
      memory := fun h => by cases h
      acking := fun h => by rcases h with h | h <;> cases h
      returned := fun h => by cases h }
  | deserted hbarrier hgone =>
    exact { hinv with
      memory := fun h => by cases h
      acking := fun h => by rcases h with h | h <;> cases h
      returned := fun _ => Or.inl hgone }
  | deafened hbarrier => exact absurd rfl heffect
  | memory ok hbarrier =>
    obtain rfl : ok = true := heffect
    have kept (h : s.Lowered job) : ({ s.cgroup with memoryMb := job.limits.memoryMb } : Ceilings) =
        ceilingsOf job.limits := by rw [h]; rfl
    exact {
      uncompiled := fun h => kept (hinv.uncompiled h)
      execing := fun h => kept (hinv.execing h)
      executed := hinv.executed
      proceed := fun h => kept (hinv.proceed h)
      memory := fun _ => rfl
      acking := fun h => by rcases h with h | h <;> cases h
      returned := fun h => by cases h }
  | pids ok hbarrier =>
    obtain rfl : ok = true := heffect
    have hlowered : ({ s.cgroup with maxPids := job.limits.maxPids } : Ceilings) = ceilingsOf job.limits := by
      rw [ceilingsOf, ← hinv.memory hbarrier]
    exact {
      uncompiled := fun _ => hlowered
      execing := fun _ => hlowered
      executed := hinv.executed
      proceed := fun _ => hlowered
      memory := fun h => by cases h
      acking := fun _ => hlowered
      returned := fun h => by cases h }
  | acked ok hbarrier =>
    exact { hinv with
      proceed := fun _ => hinv.acking (Or.inl hbarrier)
      memory := fun h => by cases h
      acking := fun _ => hinv.acking (Or.inl hbarrier)
      returned := fun h => by cases h }
  | done hbarrier =>
    exact { hinv with
      memory := fun h => by cases h
      acking := fun h => by rcases h with h | h <;> cases h
      returned := fun _ => Or.inr (hinv.acking (Or.inr hbarrier)) }

/-- For every job and cache state: the three decisions agree, and in every run whose calls at the barrier take effect
the program is executed under the ceilings of the run, exactly if a job to be compiled has a string in its command
that can be passed on. -/
theorem decisions_agree_iff (job : SandboxJob) (hasCachedBinary : Bool) :
    (DecideAlike job hasCachedBinary ∧
      ∀ s, Reaches (State.step job hasCachedBinary) (fun _ a => a.TakesEffect) (.init job hasCachedBinary) s →
        ∀ ceilings, s.executed = some ceilings → ceilings = ceilingsOf job.limits) ↔
      HasArgument job hasCachedBinary := by
  rw [← decideAlike_iff]
  refine and_iff_left_of_imp fun halike s hreached => ?_
  have hinv : CeilingInv job hasCachedBinary s := hreached.invariant (CeilingInv job hasCachedBinary)
    (.init job hasCachedBinary) fun _ _ _ hinv heffect hstep => hinv.of_step halike heffect hstep
  exact hinv.executed

/-- A job of a language whose compile command is one string with a NUL, and whose compiler may use twice the memory. -/
def nulCompilerJob : SandboxJob where
  token := 0
  language :=
    { id := 1
      sourceFile := "main.c"
      compileCmd := some ["\x00"]
      runCmd := ["/bin/sh", "main.c"]
      env := []
      defaultLimits := none
      compileLimits := some { ResourceLimits.default with memoryMb := 2 * ResourceLimits.default.memoryMb } }
  sourceCode := []
  stdin := []
  limits := .default
  cachedBinary := none

/-- The child of such a job skips the compile phase that the parent prepared for, and the program is executed under
the ceilings of the compiler. -/
theorem nulCompiler_disagrees :
    executeWillCompile nulCompilerJob false = true ∧ runWillCompile nulCompilerJob.language false = true ∧
      childCompiles nulCompilerJob.language nulCompilerJob.limits false = false ∧
      (lastState (State.step nulCompilerJob false) (.init nulCompilerJob false) [.setupDone, .execRun true]).executed =
        some ⟨2 * ResourceLimits.default.memoryMb, ResourceLimits.default.maxPids⟩ ∧
      ¬ ∀ (job : SandboxJob) (hasCachedBinary : Bool), DecideAlike job hasCachedBinary ∧
        ∀ s, Reaches (State.step job hasCachedBinary) (fun _ a => a.TakesEffect) (.init job hasCachedBinary) s →
          ∀ ceilings, s.executed = some ceilings → ceilings = ceilingsOf job.limits := by
  have hrun : runWillCompile nulCompilerJob.language false = true := by decide +kernel
  have hchild : childCompiles nulCompilerJob.language nulCompilerJob.limits false = false := by decide +kernel
  refine ⟨by decide +kernel, hrun, hchild, by decide +kernel, fun hall => ?_⟩
  have halike := (hall nulCompilerJob false).1.2
  rw [hrun, hchild] at halike
  exact absurd halike (by decide)

end ZeroCode.Sandbox.CompileDecision
