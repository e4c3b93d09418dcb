import Mathlib.Computability.StateTransition
import ZeroCode.Sandbox.PhaseOrder

/-!
# What the compiler leaves in the streams of the program

The compile sub-child is forked behind the redirections of the run phase, so the compiler
shares the stdout pipe and the stdin offset of the program. Its bytes stand before those
of the program in what is collected, and what it read is missing from what the program
reads. A deterministic program, followed call by call, then behaves on a cold compile as
on a cache hit exactly when the compiler touched neither.
-/

namespace ZeroCode.Sandbox.Phases

open ZeroCode.Core ZeroCode.Foundation PipeIsolation

/-- A deterministic program: its next call or its end, from what its calls returned so far. -/
abbrev Program := List Bytes → Syscall ⊕ ProcessEnd

/-- The submitted program makes the calls of the given one. -/
def Follows (program : Program) (s : State) : Action → Prop
  | .programCall c => program s.replies = .inl c
  | .programEnd e => program s.replies = .inr e
  | _ => True

/-- The program was executed and has made all its calls. -/
def Completed (program : Program) (s : State) : Prop :=
  s.startOffset ≠ none ∧ ∃ e, program s.replies = .inr e

/-- A program on its own: what its calls returned, and its streams. -/
structure Solo where
  replies : List Bytes
  io : Streams

/-- The start of a program whose stdin nobody has read. -/
def Solo.init : Solo := ⟨[], ⟨[], 0⟩⟩

/-- The next call of a program on its own. -/
def Solo.next (program : Program) (table : FdTable) (stdin : Bytes) (b : Solo) : Option Solo :=
  match program b.replies with
  | .inl c =>
    let (io, reply) := b.io.call .program table stdin c
    some ⟨b.replies ++ [reply], io⟩
  | .inr _ => none

/-- The program in the job is at the point the program on its own has reached. -/
structure Mirrors (s : State) (b : Solo) : Prop where
  replies : s.replies = b.replies
  offset : s.io.offset = b.io.offset
  log : (s.io.log.filter fun w => w.writer = .program) = b.io.log

/-- The program on its own reaches the point of the program in the job. -/
def Mirrored (program : Program) (num : Numbering) (stdin : Bytes) (s : State) : Prop :=
  ∃ b, StateTransition.Reaches (Solo.next program (programTable num) stdin) Solo.init b ∧ Mirrors s b

/-- What a call does depends on the streams only through the offset of stdin. -/
theorem call_eq (writer : Writer) (table : FdTable) (stdin : Bytes) (c : Syscall) (offset : ℕ) :
    ∃ entries offset' reply, (∀ w ∈ entries, w.writer = writer) ∧
      ∀ io : Streams, io.offset = offset →
        io.call writer table stdin c = (⟨io.log ++ entries, offset'⟩, reply) := by
  cases c with
  | write fd bytes =>
    cases hfd : table fd with
    | none => exact ⟨[], offset, [], by simp, fun io hio => by simp [Streams.call, hfd, ← hio]⟩
    | some d =>
      rcases d with ⟨_ | ⟨p, _ | _⟩ | _, _⟩
      · exact ⟨[], offset, [], by simp, fun io hio => by simp [Streams.call, hfd, ← hio]⟩
      · exact ⟨[], offset, [], by simp, fun io hio => by simp [Streams.call, hfd, ← hio]⟩
      · exact ⟨bytes.map fun byte => ⟨p, writer, byte⟩, offset, [], by simp,
          fun io hio => by simp [Streams.call, Streams.emit, hfd, ← hio]⟩
      · exact ⟨[], offset, [], by simp, fun io hio => by simp [Streams.call, hfd, ← hio]⟩
  | read fd count =>
    cases hfd : table fd with
    | none => exact ⟨[], offset, [], by simp, fun io hio => by simp [Streams.call, hfd, ← hio]⟩
    | some d =>
      rcases d with ⟨_ | e | _, _⟩
      · exact ⟨[], offset + ((stdin.drop offset).take count).length, (stdin.drop offset).take count, by simp,
          fun io hio => by simp [Streams.call, hfd, ← hio]⟩
      · exact ⟨[], offset, [], by simp, fun io hio => by simp [Streams.call, hfd, ← hio]⟩
      · exact ⟨[], offset, [], by simp, fun io hio => by simp [Streams.call, hfd, ← hio]⟩

/-- A call of the program in the job is the next call of the program on its own. -/
theorem Mirrors.call {job : SandboxJob} {cached : Bool} {num : Numbering} {program : Program} {s t : State}
    {b : Solo} {c : Syscall} (h : Mirrors s b) (hcall : program s.replies = .inl c)
    (taken : step job cached num s (.programCall c) = some t) :
    ∃ b', Solo.next program (programTable num) job.stdin b = some b' ∧ Mirrors t b' := by
  obtain ⟨entries, offset, reply, hwriter, hio⟩ := call_eq .program (programTable num) job.stdin c s.io.offset
  simp only [step] at taken
  split at taken
  · cases taken
    refine ⟨⟨b.replies ++ [reply], ⟨b.io.log ++ entries, offset⟩⟩, ?_, ?_, ?_, ?_⟩
    · rw [Solo.next, ← h.replies, hcall]
      simp only [hio b.io h.offset.symm]
    · simp only [hio s.io rfl, h.replies]
    · simp only [hio s.io rfl]
    · have hall : (entries.filter fun w => w.writer = .program) = entries := by
        rw [List.filter_eq_self]
        intro w hw
        simp [hwriter w hw]
      simp only [hio s.io rfl]
      rw [List.filter_append, h.log, hall]
  · cases taken

/-- A step that is no call of the program leaves it where it is. -/
theorem Mirrors.kept {s t : State} {a : Action} {entries : List Written} {b : Solo} (h : Mirrors s b)
    (effect : Effect a s t entries) (hreplies : t.replies = s.replies)
    (hentries : ∀ w ∈ entries, w.writer ≠ .program) (hoffset : t.io.offset = s.io.offset) : Mirrors t b := by
  refine ⟨hreplies.trans h.replies, hoffset.trans h.offset, ?_⟩
  have hnone : (entries.filter fun w => w.writer = .program) = [] := by
    rw [List.filter_eq_nil_iff]
    intro w hw
    simp [hentries w hw]
  rw [effect.log, List.filter_append, h.log, hnone, List.append_nil]

/-- A program that is executed while nobody has read stdin begins as on its own. -/
theorem Inv.mirrors_init {s t : State} {a : Action} {entries : List Written} (h : Inv s)
    (effect : Effect a s t entries) (hexec : s.pc = .runExec) (hio : t.io = s.io) (hoffset : s.io.offset = 0) :
    Mirrors t Solo.init := by
  obtain ⟨hidle, hlog⟩ := h.idle (h.not_started (by simp [hexec]) (by simp [hexec]))
  rcases effect.program with ⟨hpc, _⟩ | ⟨hreplies, _⟩
  · rw [hexec] at hpc
    cases hpc
  · refine ⟨hreplies.trans hidle, by rw [hio]; exact hoffset, ?_⟩
    change (t.io.log.filter fun w => w.writer = .program) = []
    rw [hio, List.filter_eq_nil_iff]
    intro w hw
    simp [hlog w hw]

/-- A program that began to read at the first byte is where it would be on its own. -/
theorem follows_mirrored {job : SandboxJob} {cached : Bool} {num : Numbering} {program : Program} {s : State}
    (reached : Reaches (step job cached num) (Follows program) State.init s) (hstart : s.startOffset = some 0) :
    Mirrored program num job.stdin s := by
  refine (reached.invariant (fun s => Inv s ∧ (s.startOffset = some 0 → Mirrored program num job.stdin s))
    ⟨inv_init, nofun⟩ ?_).2 hstart
  intro s a t h follows taken
  obtain ⟨inv, mirrored⟩ := h
  refine ⟨step_inv s a t inv taken, fun hstart => ?_⟩
  obtain ⟨entries, effect⟩ := step_effect taken
  rcases effect.start with ⟨hsame, _⟩ | ⟨hexec, _, hsome, hio⟩
  · rw [hsame] at hstart
    obtain ⟨b, hreaches, hmirrors⟩ := mirrored hstart
    rcases effect.program with ⟨_, c, rfl⟩ | ⟨hreplies, hentries, hmoved⟩
    · obtain ⟨b', hnext, hmirrors'⟩ := hmirrors.call follows taken
      exact ⟨b', hreaches.tail hnext, hmirrors'⟩
    · rw [inv.compilerReplies_kept effect (by simp [hstart])] at hmoved
      exact ⟨b, hreaches, hmirrors.kept effect hreplies hentries (by omega)⟩
  · rw [hsome] at hstart
    exact ⟨Solo.init, .refl, inv.mirrors_init effect hexec hio (Option.some.inj hstart)⟩

/-- A deterministic program that made all its calls wrote the same bytes, whenever it began to
read at the first byte. -/
theorem completed_bytesBy {job : SandboxJob} {num : Numbering} {program : Program} {s t : State}
    (hs : Mirrored program num job.stdin s) (ht : Mirrored program num job.stdin t)
    (hsEnd : Completed program s) (htEnd : Completed program t) (pipe : PipeName) :
    bytesBy s.io.log .program pipe = bytesBy t.io.log .program pipe := by
  obtain ⟨b, hb, hmirrorsB⟩ := hs
  obtain ⟨c, hc, hmirrorsC⟩ := ht
  obtain ⟨_, e, he⟩ := hsEnd
  obtain ⟨_, e', he'⟩ := htEnd
  have hbStop : Solo.next program (programTable num) job.stdin b = none := by
    rw [Solo.next, ← hmirrorsB.replies, he]
  have hcStop : Solo.next program (programTable num) job.stdin c = none := by
    rw [Solo.next, ← hmirrorsC.replies, he']
  have hsame : b = c :=
    Part.mem_unique (StateTransition.mem_eval.mpr ⟨hb, hbStop⟩) (StateTransition.mem_eval.mpr ⟨hc, hcStop⟩)
  rw [bytesBy, bytesBy, hmirrorsB.log, hmirrorsC.log, hsame]

/-- The stored part of a pipe holds no byte of the compiler. -/
def FromRunPhase (log : List Written) (pipe : PipeName) (stored : Bytes) : Prop :=
  ∀ w ∈ (log.filter fun w => w.pipe = pipe).take stored.length, w.writer ≠ .compiler

/-- The compiler comes first, so a part of a pipe is free of it exactly when it wrote nothing
there or the part is empty. -/
theorem Inv.fromRunPhase_iff {s : State} (h : Inv s) (pipe : PipeName) (stored : Bytes) :
    FromRunPhase s.io.log pipe stored ↔ bytesBy s.io.log .compiler pipe = [] ∨ stored = [] := by
  obtain ⟨compiled, others, hlog, hcompiled, hothers⟩ := h.ordered
  constructor
  · intro hfree
    cases hfirst : compiled.filter fun w => w.pipe = pipe with
    | nil =>
      refine Or.inl (bytesBy_eq_nil_iff.mpr fun w hw hpipe => ?_)
      rw [hlog] at hw
      rcases List.mem_append.mp hw with hmem | hmem
      · exact absurd hpipe (by simpa using List.filter_eq_nil_iff.mp hfirst w hmem)
      · exact hothers w hmem
    | cons w rest =>
      refine Or.inr ?_
      cases stored with
      | nil => rfl
      | cons b stored =>
        have hw : w ∈ compiled := List.mem_of_mem_filter (hfirst ▸ List.mem_cons_self)
        refine absurd (hcompiled w hw) (hfree w ?_)
        rw [hlog, List.filter_append, hfirst]
        exact List.mem_cons_self
  · intro hnone w hw
    rcases hnone with hnone | hempty
    · intro hwriter
      have hmem := List.mem_of_mem_take hw
      simp only [List.mem_filter, decide_eq_true_eq] at hmem
      exact bytesBy_eq_nil_iff.mp hnone w hmem.1 hmem.2 hwriter
    · rw [hempty] at hw
      cases hw

/-- What is stored of the streams is the program's own, the program reads stdin from its first
byte, and its streams are those of a cache hit. -/
structure StreamsAreRunPhase (job : SandboxJob) (num : Numbering) (s : State) (result : SandboxResult) : Prop where
  stdout : FromRunPhase s.io.log .stdout result.stdout
  stderr : FromRunPhase s.io.log .stderr result.stderr
  stdin : ∀ offset, s.startOffset = some offset → offset = 0
  cacheHit : ∀ program s' (m' : Measures s') result',
    Reaches (step job false num) (Follows program) State.init s →
    Reaches (step job true num) (Follows program) State.init s' → Returns job true s' m' result' →
    Completed program s → Completed program s' → (result.status = .compileError ↔ result'.status = .compileError) →
    result.stdout = result'.stdout ∧ result.stderr = result'.stderr

/-- The compiler wrote nothing to what is stored of the streams, and consumed no byte of a stdin
that the program reads. -/
structure CompilerKeptApart (job : SandboxJob) (s : State) (m : Measures s) : Prop where
  stdout : bytesBy s.io.log .compiler .stdout = [] ∨ job.limits.maxStdout = 0 ∨ EndsWithSentinel s m
  stderr : bytesBy s.io.log .compiler .stderr = [] ∨ job.limits.maxStderr = 0 ∨ EndsWithSentinel s m
  stdin : s.startOffset ≠ none → s.compilerReplies.flatten = []

/-- What is stored of a pipe is free of the compiler exactly when it wrote nothing there, or
nothing is stored at all. -/
theorem Inv.stored_fromRunPhase_iff {s : State} {pipe : PipeName} {stored : Bytes} {cap : ℕ} {discarded : Prop}
    (h : Inv s) (dropped : discarded → stored = [])
    (kept : ¬ discarded → stored = (bytesOf s.io.log pipe).take cap) :
    FromRunPhase s.io.log pipe stored ↔ bytesBy s.io.log .compiler pipe = [] ∨ cap = 0 ∨ discarded := by
  rw [h.fromRunPhase_iff]
  refine ⟨?_, ?_⟩
  · rintro (hnone | hempty)
    · exact Or.inl hnone
    · by_cases hdiscarded : discarded
      · exact Or.inr (Or.inr hdiscarded)
      · rw [kept hdiscarded, List.take_eq_nil_iff] at hempty
        rcases hempty with hcap | hpipe
        · exact Or.inr (Or.inl hcap)
        · refine Or.inl (bytesBy_eq_nil_iff.mpr fun w hw hwritten => ?_)
          exact absurd hwritten (bytesOf_eq_nil_iff.mp hpipe w hw)
  · rintro (hnone | hcap | hdiscarded)
    · exact Or.inl hnone
    · by_cases hdiscarded : discarded
      · exact Or.inr (dropped hdiscarded)
      · exact Or.inr (by rw [kept hdiscarded, hcap, List.take_zero])
    · exact Or.inr (dropped hdiscarded)

/-- The program starts to read where the compiler stopped. -/
theorem Inv.startOffset_eq {s : State} (h : Inv s) {offset : ℕ} (hstart : s.startOffset = some offset) :
    offset = s.compilerReplies.flatten.length := by
  have hconsumed := h.consumed
  rwa [hstart, Option.getD_some] at hconsumed

/-- Once the program was executed, our code has written nothing to its streams. -/
theorem Inv.streams_not_harness {s : State} (h : Inv s) (hstarted : s.startOffset ≠ none) {pipe : PipeName}
    (hpipe : pipe = .stdout ∨ pipe = .stderr) : ∀ w ∈ s.io.log, w.pipe = pipe → w.writer ≠ .harness := by
  intro w hw hwritten hwriter
  subst hwritten
  rcases h.harness w hw hwriter with hbad | hbad | ⟨_, hnone, _⟩
  · rcases hpipe with hpipe | hpipe <;> simp [hpipe] at hbad
  · rcases hpipe with hpipe | hpipe <;> simp [hpipe] at hbad
  · exact hstarted hnone

/-- A job with a cached artifact never starts the compiler. -/
theorem not_entered_of_cached {job : SandboxJob} {num : Numbering} {s : State}
    (reached : Reachable (step job true num) State.init s) : s.entered = false := by
  by_contra hentered
  have hwill := entered_willCompile reached (Bool.eq_true_of_not_eq_false hentered)
  simp [LanguageSpec.willCompile] at hwill

/-- A stream of a program that made all its calls, up to what the compiler left there, is the
same after a cold compile and on a cache hit. -/
theorem stream_eq_cacheHit {job : SandboxJob} {num : Numbering} {program : Program} {s t : State} {pipe : PipeName}
    (cold : Reaches (step job false num) (Follows program) State.init s)
    (hit : Reaches (step job true num) (Follows program) State.init t)
    (coldEnd : Completed program s) (hitEnd : Completed program t) (apart : s.compilerReplies.flatten = [])
    (hpipe : pipe = .stdout ∨ pipe = .stderr) :
    bytesOf s.io.log pipe = bytesBy s.io.log .compiler pipe ++ bytesOf t.io.log pipe := by
  have invCold := reachable_inv cold.reachable
  have invHit := reachable_inv hit.reachable
  have hidle := invHit.untouched (not_entered_of_cached hit.reachable)
  obtain ⟨k, hk⟩ := Option.ne_none_iff_exists'.mp coldEnd.1
  obtain ⟨l, hl⟩ := Option.ne_none_iff_exists'.mp hitEnd.1
  have hk0 : k = 0 := by rw [invCold.startOffset_eq hk, apart, List.length_nil]
  have hl0 : l = 0 := by rw [invHit.startOffset_eq hl, hidle.2.1, List.flatten_nil, List.length_nil]
  have hsame : bytesBy s.io.log .program pipe = bytesBy t.io.log .program pipe :=
    completed_bytesBy (follows_mirrored cold (hk0 ▸ hk)) (follows_mirrored hit (hl0 ▸ hl)) coldEnd hitEnd pipe
  have hnone : bytesBy t.io.log .compiler pipe = [] := bytesBy_eq_nil_iff.mpr fun w hw _ => (hidle.2.2 w hw).1
  rw [invCold.bytesOf_eq (invCold.streams_not_harness coldEnd.1 hpipe),
    invHit.bytesOf_eq (invHit.streams_not_harness hitEnd.1 hpipe), hnone, hsame, List.nil_append]

/-- A stored stream of a cold compile is that of a cache hit when the compiler kept apart. -/
theorem stored_eq_of_stream_eq {compiler cold hit stored stored' : Bytes} {cap : ℕ} {discarded discarded' : Prop}
    (stream : cold = compiler ++ hit) (apart : compiler = [] ∨ cap = 0 ∨ discarded)
    (agree : discarded ↔ discarded') (dropped : discarded → stored = []) (dropped' : discarded' → stored' = [])
    (kept : ¬ discarded → stored = cold.take cap) (kept' : ¬ discarded' → stored' = hit.take cap) :
    stored = stored' := by
  by_cases hdiscarded : discarded
  · rw [dropped hdiscarded, dropped' (agree.mp hdiscarded)]
  · rw [kept hdiscarded, kept' fun h => hdiscarded (agree.mpr h), stream]
    rcases apart with hnone | hcap | hbad
    · rw [hnone, List.nil_append]
    · rw [hcap, List.take_zero, List.take_zero]
    · exact absurd hbad hdiscarded

/-- The streams are those of the run phase exactly when the compiler kept apart from them. -/
theorem streamsAreRunPhase_iff {job : SandboxJob} {num : Numbering} {s : State} {m : Measures s}
    {result : SandboxResult} (reached : Reachable (step job false num) State.init s)
    (h : Returns job false s m result) : StreamsAreRunPhase job num s result ↔ CompilerKeptApart job s m := by
  have inv := reachable_inv reached
  obtain ⟨hdropped, hkept⟩ := returns_streams h
  have hstdout : FromRunPhase s.io.log .stdout result.stdout ↔ _ :=
    inv.stored_fromRunPhase_iff (fun hs => (hdropped hs).2.1) fun hs => (hkept hs).2.1
  have hstderr : FromRunPhase s.io.log .stderr result.stderr ↔ _ :=
    inv.stored_fromRunPhase_iff (fun hs => (hdropped hs).2.2) fun hs => (hkept hs).2.2
  constructor
  · rintro ⟨hout, herr, hstdin, _⟩
    refine ⟨hstdout.mp hout, hstderr.mp herr, fun hstarted => ?_⟩
    obtain ⟨offset, hoffset⟩ := Option.ne_none_iff_exists'.mp hstarted
    rw [← List.length_eq_zero_iff, ← inv.startOffset_eq hoffset]
    exact hstdin offset hoffset
  · rintro ⟨hout, herr, hstdin⟩
    refine ⟨hstdout.mpr hout, hstderr.mpr herr, ?_, ?_⟩
    · intro offset hoffset
      rw [inv.startOffset_eq hoffset, hstdin (by simp [hoffset]), List.length_nil]
    · intro program s' m' result' cold hit h' coldEnd hitEnd hagree
      obtain ⟨hdropped', hkept'⟩ := returns_streams h'
      rw [returns_compileError_iff h, returns_compileError_iff h'] at hagree
      have hapart := hstdin coldEnd.1
      exact ⟨stored_eq_of_stream_eq (stream_eq_cacheHit cold hit coldEnd hitEnd hapart (Or.inl rfl)) hout hagree
          (fun hs => (hdropped hs).2.1) (fun hs => (hdropped' hs).2.1) (fun hs => (hkept hs).2.1)
          fun hs => (hkept' hs).2.1,
        stored_eq_of_stream_eq (stream_eq_cacheHit cold hit coldEnd hitEnd hapart (Or.inr rfl)) herr hagree
          (fun hs => (hdropped hs).2.2) (fun hs => (hdropped' hs).2.2) (fun hs => (hkept hs).2.2)
          fun hs => (hkept' hs).2.2⟩

/-- A compiler that is silent on its streams leaves them to the program. -/
theorem streamsAreRunPhase_iff_quiet :
    ∃ result, Returns .compiled false (finalState .compiled false (coldRun [] [.write 1 [120]] [1]))
        (.whole _ 5) result ∧
      StreamsAreRunPhase .compiled .consecutive (finalState .compiled false (coldRun [] [.write 1 [120]] [1]))
        result := by
  have reached := reachable_finalState .compiled false (coldRun [] [.write 1 [120]] [1]) (by decide +kernel)
  obtain ⟨result, hresult⟩ := exists_returns_finalState .compiled false (coldRun [] [.write 1 [120]] [1])
    (by decide +kernel) 5
  refine ⟨result, hresult, (streamsAreRunPhase_iff reached hresult).mpr ⟨Or.inl ?_, Or.inl ?_, fun _ => ?_⟩⟩
  all_goals decide +kernel

/-- A compiler that succeeds but prints a byte on its stdout leaves it in the stdout of the
program. -/
theorem compilerStdout_leaks :
    ¬ ∀ job num s, Reachable (step job false num) State.init s → s.entered = true → s.startOffset ≠ none →
      ∀ (m : Measures s) result, Returns job false s m result → StreamsAreRunPhase job num s result := by
  intro h
  have reached := reachable_finalState .compiled false (coldRun [.write 1 [120]] [] [1]) (by decide +kernel)
  obtain ⟨result, hresult⟩ := exists_returns_finalState .compiled false (coldRun [.write 1 [120]] [] [1])
    (by decide +kernel) 5
  have hapart := (streamsAreRunPhase_iff reached hresult).mp
    (h _ _ _ reached (by decide +kernel) (by decide +kernel) _ _ hresult)
  rcases hapart.stdout with hnone | hcap | ⟨_, _, hsentinel⟩
  · revert hnone
    decide +kernel
  · revert hcap
    decide +kernel
  · revert hsentinel
    decide +kernel

end ZeroCode.Sandbox.Phases
