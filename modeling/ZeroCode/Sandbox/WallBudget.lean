import ZeroCode.Foundation.Transition
import ZeroCode.Sandbox.Outcome

/-!
# The wall budgets of the two phases

The parent polls its child and compares the clock with a deadline: the start of the wait and
the compile budget, or the phase boundary and the run budget once the barrier thread has
published it. A poll reads the boundary before it asks for the child and before it compares,
so a boundary that is published in between comes too late for this poll.
-/

namespace ZeroCode.Sandbox.WallBudget

open ZeroCode.Core ZeroCode.Foundation

/-- A reading of the monotonic clock, in nanoseconds. -/
abbrev Instant := ℕ

/-- The pause between two polls. -/
def pollPause : Duration := 10000000

/-- What `waitpid` says of the child. -/
inductive WaitReply
  | stillAlive
  | status (status : WaitStatus)
  | echild
  | errno (e : String)
  deriving DecidableEq, Repr

/-- Where the barrier thread is. It takes the instant with the lock of the slot in its hands. -/
inductive BarrierPc
  | reading
  | sampling
  | locked
  | taken (boundary : Instant)
  | released
  deriving DecidableEq, Repr

/-- Where the wait is, with the boundary that its poll found. -/
inductive WaitPc
  | starting
  | reading
  | polling (found : Option Instant)
  | comparing (found : Option Instant)
  | killing (found : Option Instant)
  | reaping
  | sleeping (until_ : Instant)
  | returned (result : Except SandboxError (WaitStatus × Bool))
  deriving DecidableEq

/-- When the cgroup was killed, and the boundary that had been published by then. -/
structure Kill where
  time : Instant
  published : Option Instant
  deriving DecidableEq, Repr

/-- The wait, the barrier thread, the slot between them, and the clock. The last field only records. -/
structure Watch where
  now : Instant
  start : Instant
  slot : Option Instant
  barrier : BarrierPc
  pc : WaitPc
  kill : Option Kill
  deriving DecidableEq

/-- A step of one of the threads, or of the clock. -/
inductive WatchAction
  | pass (elapsed : Duration)
  | readPhase (one : Bool)
  | lockSlot
  | takeInstant
  | publish
  | start
  | readBarrier
  | poll (reply : WaitReply)
  | compareClock
  | kill
  | reap (reply : WaitReply)
  | wake
  deriving DecidableEq, Repr

/-- The barrier thread has the lock of the slot. -/
def BarrierPc.holdsLock : BarrierPc → Bool
  | .locked | .taken _ => true
  | .reading | .sampling | .released => false

/-- The budgets of the compile phase and of the run phase. -/
def wallBudgets (spec : LanguageSpec) (limits : ResourceLimits) (hasCachedBinary : Bool) : Duration × Duration :=
  let runWall := Duration.fromSecs limits.wallTime
  match spec.willCompile hasCachedBinary, spec.compileLimits with
  | true, some cl => (Duration.fromSecs (max cl.wallTime limits.wallTime), runWall)
  | _, _ => (runWall, runWall)

section Budgets

variable (compileWall runWall : Duration)

/-- The deadline of a poll that found this boundary. -/
def deadline (start : Instant) : Option Instant → Instant
  | some boundary => boundary + runWall
  | none => start + compileWall

/-- One step. The clock may pass between any two steps of the threads. -/
def Watch.step (s : Watch) : WatchAction → Option Watch
  | .pass elapsed => some { s with now := s.now + elapsed }
  | .readPhase one =>
    match s.barrier with
    | .reading => some { s with barrier := if one then .sampling else .released }
    | _ => none
  | .lockSlot =>
    match s.barrier with
    | .sampling => some { s with barrier := .locked }
    | _ => none
  | .takeInstant =>
    match s.barrier with
    | .locked => some { s with barrier := .taken s.now }
    | _ => none
  | .publish =>
    match s.barrier with
    | .taken boundary => some { s with barrier := .released, slot := some boundary }
    | _ => none
  | .start =>
    match s.pc with
    | .starting => some { s with start := s.now, pc := .reading }
    | _ => none
  | .readBarrier =>
    match s.pc with
    | .reading => if s.barrier.holdsLock then none else some { s with pc := .polling s.slot }
    | _ => none
  | .poll reply =>
    match s.pc with
    | .polling found =>
      match reply with
      | .stillAlive => some { s with pc := .comparing found }
      | .status status => some { s with pc := .returned (.ok (status, false)) }
      | .echild => some { s with
          pc := .returned (.error (.wait "the child's exit status was reaped by another waiter in this process")) }
      | .errno e => some { s with pc := .returned (.error (.wait ("waitpid: " ++ e))) }
    | _ => none
  | .compareClock =>
    match s.pc with
    | .comparing found =>
      if deadline compileWall runWall s.start found ≤ s.now then some { s with pc := .killing found }
      else some { s with pc := .sleeping (s.now + pollPause) }
    | _ => none
  | .kill =>
    match s.pc with
    | .killing _ => some { s with pc := .reaping, kill := some ⟨s.now, s.slot⟩ }
    | _ => none
  | .reap reply =>
    match s.pc, reply with
    | .reaping, .status status => some { s with pc := .returned (.ok (status, true)) }
    | .reaping, .echild => some { s with pc := .returned (.error (.wait "post-kill wait: ECHILD")) }
    | .reaping, .errno e => some { s with pc := .returned (.error (.wait ("post-kill wait: " ++ e))) }
    | _, _ => none
  | .wake =>
    match s.pc with
    | .sleeping until_ => if until_ ≤ s.now then some { s with pc := .reading } else none
    | _ => none

/-- The fork was made at this time, and the wait is about to start. -/
def Watch.init (now : Instant) : Watch := ⟨now, now, none, .reading, .starting, none⟩

/-- The phase that was cut short by a kill had its whole budget. -/
def Kill.Fair (start : Instant) (k : Kill) : Prop := deadline compileWall runWall start k.published ≤ k.time

/-- A fair kill comes a run budget after the boundary, or a compile budget after the start. -/
theorem Kill.fair_iff (start : Instant) (k : Kill) :
    k.Fair compileWall runWall start ↔ (∀ boundary, k.published = some boundary → boundary + runWall ≤ k.time) ∧
      (k.published = none → start + compileWall ≤ k.time) := by
  unfold Kill.Fair
  cases k.published with
  | none => simp [deadline]
  | some boundary => simp [deadline]

/-- A kill comes with the boundary as the poll found it, or a run budget after the one published since. -/
def InTime (s : Watch) (a : WatchAction) : Prop :=
  a = .kill → s.pc = .killing s.slot ∨ ∃ boundary, s.slot = some boundary ∧ boundary + runWall ≤ s.now

/-- What a step does, by the branch it takes. -/
inductive Effect (s : Watch) : WatchAction → Watch → Prop
  | pass (elapsed : Duration) : Effect s (.pass elapsed) { s with now := s.now + elapsed }
  | readPhase (one : Bool) (hbarrier : s.barrier = .reading) :
      Effect s (.readPhase one) { s with barrier := if one then .sampling else .released }
  | lockSlot (hbarrier : s.barrier = .sampling) : Effect s .lockSlot { s with barrier := .locked }
  | takeInstant (hbarrier : s.barrier = .locked) : Effect s .takeInstant { s with barrier := .taken s.now }
  | publish (boundary : Instant) (hbarrier : s.barrier = .taken boundary) :
      Effect s .publish { s with barrier := .released, slot := some boundary }
  | start (hpc : s.pc = .starting) : Effect s .start { s with start := s.now, pc := .reading }
  | readBarrier (hpc : s.pc = .reading) : Effect s .readBarrier { s with pc := .polling s.slot }
  | alive (found : Option Instant) (hpc : s.pc = .polling found) :
      Effect s (.poll .stillAlive) { s with pc := .comparing found }
  | gone (found : Option Instant) (reply : WaitReply) (result : Except SandboxError (WaitStatus × Bool))
      (hpc : s.pc = .polling found) : Effect s (.poll reply) { s with pc := .returned result }
  | due (found : Option Instant) (hpc : s.pc = .comparing found)
      (hdue : deadline compileWall runWall s.start found ≤ s.now) :
      Effect s .compareClock { s with pc := .killing found }
  | early (found : Option Instant) (hpc : s.pc = .comparing found) :
      Effect s .compareClock { s with pc := .sleeping (s.now + pollPause) }
  | kill (found : Option Instant) (hpc : s.pc = .killing found) :
      Effect s .kill { s with pc := .reaping, kill := some ⟨s.now, s.slot⟩ }
  | reap (reply : WaitReply) (result : Except SandboxError (WaitStatus × Bool)) (hpc : s.pc = .reaping) :
      Effect s (.reap reply) { s with pc := .returned result }
  | wake (until_ : Instant) (hpc : s.pc = .sleeping until_) : Effect s .wake { s with pc := .reading }

/-- The boundary that the poll under way has found. -/
def WaitPc.found : WaitPc → Option Instant
  | .polling found | .comparing found | .killing found => found
  | _ => none

/-- The child was reaped, or the cgroup killed for it. -/
def WaitPc.isOver : WaitPc → Bool
  | .reaping | .returned _ => true
  | _ => false

/-- A published boundary stays, a poll that found one found that one, a wait that kills is past its deadline, and it
kills but once. -/
structure WatchInv (s : Watch) : Prop where
  published : ∀ boundary, s.slot = some boundary → s.barrier = .released
  found : ∀ boundary, s.pc.found = some boundary → s.slot = some boundary
  due : ∀ found, s.pc = .killing found → deadline compileWall runWall s.start found ≤ s.now
  once : s.pc.isOver = false → s.kill = none

/-- The phase that was killed lacked a part of its budget. -/
def Watch.CutShort (s : Watch) : Prop := ∃ k, s.kill = some k ∧ ¬ k.Fair compileWall runWall s.start

variable {compileWall runWall}

/-- Every step takes one of the branches. -/
theorem effect_of_step {s t : Watch} {a : WatchAction} (hstep : s.step compileWall runWall a = some t) :
    Effect compileWall runWall s a t := by
  cases a with
  | pass elapsed =>
    cases hstep
    exact .pass elapsed
  | readPhase one =>
    simp only [Watch.step] at hstep
    split at hstep <;> cases hstep
    exact .readPhase one ‹_›
  | lockSlot =>
    simp only [Watch.step] at hstep
    split at hstep <;> cases hstep
    exact .lockSlot ‹_›
  | takeInstant =>
    simp only [Watch.step] at hstep
    split at hstep <;> cases hstep
    exact .takeInstant ‹_›
  | publish =>
    simp only [Watch.step] at hstep
    split at hstep <;> cases hstep
    exact .publish _ ‹_›
  | start =>
    simp only [Watch.step] at hstep
    split at hstep <;> cases hstep
    exact .start ‹_›
  | readBarrier =>
    simp only [Watch.step] at hstep
    split at hstep
    · obtain ⟨_, hstep⟩ := Option.ite_none_left_eq_some.mp hstep
      cases hstep
      exact .readBarrier ‹_›
    · cases hstep
  | poll reply =>
    simp only [Watch.step] at hstep
    split at hstep
    · cases reply with
      | stillAlive =>
        cases hstep
        exact .alive _ ‹_›
      | status status =>
        cases hstep
        exact .gone _ _ _ ‹_›
      | echild =>
        cases hstep
        exact .gone _ _ _ ‹_›
      | errno e =>
        cases hstep
        exact .gone _ _ _ ‹_›
    · cases hstep
  | compareClock =>
    simp only [Watch.step] at hstep
    split at hstep
    · split at hstep
      · cases hstep
        exact .due _ ‹_› ‹_›
      · cases hstep
        exact .early _ ‹_›
    · cases hstep
  | kill =>
    simp only [Watch.step] at hstep
    split at hstep <;> cases hstep
    exact .kill _ ‹_›
  | reap reply =>
    simp only [Watch.step] at hstep
    split at hstep <;> cases hstep <;> exact .reap _ _ ‹_›
  | wake =>
    simp only [Watch.step] at hstep
    split at hstep
    · obtain ⟨_, hstep⟩ := Option.ite_none_right_eq_some.mp hstep
      cases hstep
      exact .wake _ ‹_›
    · cases hstep

/-- Nothing is published, found or killed at the start. -/
theorem WatchInv.init (now : Instant) : WatchInv compileWall runWall (.init now) where
  published boundary h := by cases h
  found boundary h := by cases h
  due found h := by cases h
  once _ := rfl

/-- Nothing is published before the barrier thread lets go of the slot. -/
theorem WatchInv.slot_eq_none {s : Watch} (hinv : WatchInv compileWall runWall s) (hbarrier : s.barrier ≠ .released) :
    s.slot = none :=
  Option.eq_none_iff_forall_ne_some.mpr fun boundary hslot => hbarrier (hinv.published boundary hslot)

/-- A step of the barrier thread that publishes nothing keeps the invariant. -/
theorem WatchInv.setBarrier {s : Watch} (hinv : WatchInv compileWall runWall s) (hbarrier : s.barrier ≠ .released)
    (barrier : BarrierPc) : WatchInv compileWall runWall { s with barrier := barrier } :=
  have hnone : s.slot = none := hinv.slot_eq_none hbarrier
  { hinv with published := fun boundary hslot => absurd (hnone.symm.trans hslot) (by simp) }

/-- A step of the wait that does not kill keeps the invariant. -/
theorem WatchInv.goto {s : Watch} (hinv : WatchInv compileWall runWall s) {pc : WaitPc}
    (hfound : ∀ boundary, pc.found = some boundary → s.slot = some boundary)
    (hdue : ∀ found, pc = .killing found → deadline compileWall runWall s.start found ≤ s.now)
    (hover : pc.isOver = false → s.pc.isOver = false) : WatchInv compileWall runWall { s with pc := pc } where
  published := hinv.published
  found := hfound
  due := hdue
  once hpc := hinv.once (hover hpc)

/-- Every step keeps the invariant. -/
theorem WatchInv.of_step {s t : Watch} {a : WatchAction} (hinv : WatchInv compileWall runWall s)
    (hstep : s.step compileWall runWall a = some t) : WatchInv compileWall runWall t := by
  have hfound := hinv.found
  cases effect_of_step hstep with
  | pass elapsed =>
    exact { hinv with due := fun found hpc => (hinv.due found hpc).trans (Nat.le_add_right s.now elapsed) }
  | readPhase one hbarrier => exact hinv.setBarrier (by simp [hbarrier]) _
  | lockSlot hbarrier => exact hinv.setBarrier (by simp [hbarrier]) _
  | takeInstant hbarrier => exact hinv.setBarrier (by simp [hbarrier]) _
  | publish boundary hbarrier =>
    have hnone : s.slot = none := hinv.slot_eq_none (by simp [hbarrier])
    have hnotFound (b : Instant) (hpc : s.pc.found = some b) : some boundary = some b := by
      rw [hfound b hpc] at hnone
      cases hnone
    exact { hinv with published := fun _ _ => rfl, found := hnotFound }
  | start hpc =>
    exact {
      published := hinv.published
      found := fun boundary hreading => by cases hreading
      due := fun found hreading => by cases hreading
      once := fun _ => hinv.once (by rw [hpc]; rfl) }
  | readBarrier hpc => exact hinv.goto (fun _ h => h) (fun _ h => by cases h) fun _ => by rw [hpc]; rfl
  | alive found hpc =>
    rw [hpc] at hfound
    exact hinv.goto hfound (fun _ h => by cases h) fun _ => by rw [hpc]; rfl
  | gone found reply result hpc => exact hinv.goto (fun _ h => by cases h) (fun _ h => by cases h) fun h => by cases h
  | due found hpc hdue =>
    rw [hpc] at hfound
    refine hinv.goto hfound (fun found' h => ?_) fun _ => by rw [hpc]; rfl
    cases h
    exact hdue
  | early found hpc => exact hinv.goto (fun _ h => by cases h) (fun _ h => by cases h) fun _ => by rw [hpc]; rfl
  | kill found hpc =>
    exact {
      published := hinv.published
      found := fun boundary hreaping => by cases hreaping
      due := fun found hreaping => by cases hreaping
      once := fun hreaping => by cases hreaping }
  | reap reply result hpc => exact hinv.goto (fun _ h => by cases h) (fun _ h => by cases h) fun h => by cases h
  | wake until_ hpc => exact hinv.goto (fun _ h => by cases h) (fun _ h => by cases h) fun _ => by rw [hpc]; rfl

/-- What was killed and when does not change any more. -/
theorem kill_of_step {s t : Watch} {a : WatchAction} (hinv : WatchInv compileWall runWall s)
    (hstep : s.step compileWall runWall a = some t) (hne : a ≠ .kill) :
    t.kill = s.kill ∧ (t.start = s.start ∨ s.kill = none) := by
  cases effect_of_step hstep with
  | kill found hpc => exact absurd rfl hne
  | start hpc => exact ⟨rfl, Or.inr (hinv.once (by rw [hpc]; rfl))⟩
  | _ => exact ⟨rfl, Or.inl rfl⟩

/-- A kill is fair exactly if it is in time. -/
theorem WatchInv.fair_iff {s : Watch} (hinv : WatchInv compileWall runWall s) {found : Option Instant}
    (hpc : s.pc = .killing found) : Kill.Fair compileWall runWall s.start ⟨s.now, s.slot⟩ ↔ InTime runWall s .kill := by
  have hdue : deadline compileWall runWall s.start found ≤ s.now := hinv.due found hpc
  have hfound := hinv.found
  rw [hpc] at hfound
  unfold Kill.Fair InTime
  rw [hpc]
  constructor
  · intro hfair _
    cases found with
    | some boundary => exact Or.inl (congrArg WaitPc.killing (hfound boundary rfl).symm)
    | none =>
      cases hslot : s.slot with
      | none => exact Or.inl rfl
      | some boundary =>
        -- published after this poll had looked for it
        rw [hslot] at hfair
        exact Or.inr ⟨boundary, rfl, hfair⟩
  · intro hinTime
    rcases hinTime rfl with hsame | ⟨boundary, hslot, hlate⟩
    · rw [← WaitPc.killing.inj hsame]
      exact hdue
    · rw [hslot]
      exact hlate

/-- A phase is cut short exactly by a kill that is not in time. -/
theorem cutShort_of_step {s t : Watch} {a : WatchAction} (hinv : WatchInv compileWall runWall s)
    (hstep : s.step compileWall runWall a = some t) :
    t.CutShort compileWall runWall ↔ s.CutShort compileWall runWall ∨ ¬ InTime runWall s a := by
  by_cases hkill : a = .kill
  · subst hkill
    cases effect_of_step hstep with
    | kill found hpc =>
      have hnone : s.kill = none := hinv.once (by rw [hpc]; rfl)
      rw [← hinv.fair_iff hpc, Watch.CutShort, Watch.CutShort, hnone]
      simp
  · obtain ⟨hsame, hstart⟩ := kill_of_step hinv hstep hkill
    have hinTime : InTime runWall s a := fun h => absurd h hkill
    rw [Watch.CutShort, Watch.CutShort, hsame]
    rcases hstart with hstart | hnone
    · simp [hstart, hinTime]
    · simp [hnone, hinTime]

/-- For all budgets, every monotone clock and every interleaving: no phase is cut short exactly if every kill comes
with the boundary as its poll found it, or a run budget after the boundary that was published since. -/
theorem budgets_kept_iff {now : Instant} {actions : List WatchAction} {s : Watch}
    (run : runActions (Watch.step compileWall runWall) (.init now) actions = some s) :
    (∀ k, s.kill = some k → (∀ boundary, k.published = some boundary → boundary + runWall ≤ k.time) ∧
        (k.published = none → s.start + compileWall ≤ k.time)) ↔
      Along (Watch.step compileWall runWall) (InTime runWall) (.init now) actions := by
  have hcut : (∀ k, s.kill = some k → (∀ boundary, k.published = some boundary → boundary + runWall ≤ k.time) ∧
      (k.published = none → s.start + compileWall ≤ k.time)) ↔ ¬ s.CutShort compileWall runWall := by
    simp only [Watch.CutShort, not_exists, not_and, not_not]
    exact forall₂_congr fun k _ => (k.fair_iff compileWall runWall s.start).symm
  rw [hcut]
  refine along_iff_of_fault (WatchInv compileWall runWall) (Watch.CutShort compileWall runWall)
    (fun _ _ _ hinv hstep => hinv.of_step hstep) ?_ ?_ (.init now) ?_ run
  · exact fun s a t hinv hstep hfault => (cutShort_of_step hinv hstep).mpr (Or.inl hfault)
  · intro s a t hinv hstep hsound
    rw [cutShort_of_step hinv hstep]
    exact or_iff_right hsound
  · rintro ⟨k, hk, _⟩
    cases hk

end Budgets

/-- The compiler ends at once, and the program uses up its 50 units from then on. -/
def publishedRun : List WatchAction :=
  [.readPhase true, .lockSlot, .takeInstant, .publish, .start, .pass 60, .readBarrier, .poll .stillAlive,
    .compareClock, .kill]

/-- It is killed in time. -/
theorem budgets_kept_publishedRun :
    (lastState (Watch.step 100 50) (.init 0) publishedRun).kill = some ⟨60, some 0⟩ ∧
      Along (Watch.step 100 50) (InTime 50) (.init 0) publishedRun := by
  have hkill : (lastState (Watch.step 100 50) (.init 0) publishedRun).kill = some ⟨60, some 0⟩ := by decide +kernel
  refine ⟨hkill, (budgets_kept_iff (runActions_eq_lastState (by decide +kernel))).mp fun k hk => ?_⟩
  obtain rfl : (⟨60, some 0⟩ : Kill) = k := Option.some.inj (hkill.symm.trans hk)
  refine ⟨fun boundary hboundary => ?_, fun h => by cases h⟩
  cases hboundary
  decide

/-- The compiler ends one unit before its deadline, after the poll has looked for the boundary and before it looks at
the clock. -/
def lateRun : List WatchAction :=
  [.start, .pass 99, .readBarrier, .poll .stillAlive, .readPhase true, .lockSlot, .takeInstant, .publish, .pass 1,
    .compareClock, .kill]

/-- The program is killed after one of its 50 units. -/
theorem run_cut_short :
    (lastState (Watch.step 100 50) (.init 0) lateRun).kill = some ⟨100, some 99⟩ ∧
      ¬ ∀ (compileWall runWall : Duration) (now : Instant) (actions : List WatchAction) (s : Watch),
        runActions (Watch.step compileWall runWall) (.init now) actions = some s →
          ∀ k, s.kill = some k → (∀ boundary, k.published = some boundary → boundary + runWall ≤ k.time) ∧
            (k.published = none → s.start + compileWall ≤ k.time) := by
  have hkill : (lastState (Watch.step 100 50) (.init 0) lateRun).kill = some ⟨100, some 99⟩ := by decide +kernel
  refine ⟨hkill, fun hall => ?_⟩
  have hrun : runActions (Watch.step 100 50) (.init 0) lateRun = some (lastState (Watch.step 100 50) (.init 0) lateRun) :=
    runActions_eq_lastState (by decide +kernel)
  have hkept : 99 + 50 ≤ 100 := (hall 100 50 0 lateRun _ hrun _ hkill).1 99 rfl
  exact absurd hkept (by decide)

/-- Without a compile phase both budgets are that of the run. -/
theorem wallBudgets_of_not_willCompile {spec : LanguageSpec} {limits : ResourceLimits} {hasCachedBinary : Bool}
    (h : spec.willCompile hasCachedBinary = false) :
    wallBudgets spec limits hasCachedBinary = (Duration.fromSecs limits.wallTime, Duration.fromSecs limits.wallTime) := by
  rw [wallBudgets, h]

/-- Only the barrier thread publishes. -/
theorem slot_of_step {compileWall runWall : Duration} {s t : Watch} {a : WatchAction}
    (hstep : s.step compileWall runWall a = some t) (hne : a ≠ .publish) : t.slot = s.slot := by
  cases effect_of_step hstep with
  | publish boundary hbarrier => exact absurd rfl hne
  | _ => rfl

/-- Where no boundary is published there is a single deadline, and a kill comes after it. -/
theorem single_deadline {compileWall runWall : Duration} {now : Instant} {actions : List WatchAction} {s : Watch}
    (hquiet : ∀ a ∈ actions, a ≠ .publish)
    (run : runActions (Watch.step compileWall runWall) (.init now) actions = some s) :
    ∀ k, s.kill = some k → s.start + compileWall ≤ k.time := by
  have hreached := Reaches.of_runActions_forall actions hquiet run
  refine (hreached.invariant (fun s => WatchInv compileWall runWall s ∧ s.slot = none ∧
    ∀ k, s.kill = some k → s.start + compileWall ≤ k.time) ⟨.init now, rfl, fun k hk => by cases hk⟩ ?_).2.2
  rintro s a t ⟨hinv, hslot, hkept⟩ hne hstep
  refine ⟨hinv.of_step hstep, (slot_of_step hstep hne).trans hslot, ?_⟩
  by_cases hkill : a = .kill
  · subst hkill
    cases effect_of_step hstep with
    | kill found hpc =>
      have hfair : Kill.Fair compileWall runWall s.start ⟨s.now, s.slot⟩ := by
        refine (hinv.fair_iff hpc).mpr fun _ => Or.inl ?_
        have hfound := hinv.found
        rw [hpc] at hfound ⊢
        cases found with
        | none => rw [hslot]
        | some boundary => rw [hfound boundary rfl]
      intro k hk
      cases hk
      rw [hslot] at hfair
      exact hfair
  · obtain ⟨hsame, hstart⟩ := kill_of_step hinv hstep hkill
    intro k hk
    rw [hsame] at hk
    rcases hstart with hstart | hnone
    · rw [hstart]
      exact hkept k hk
    · rw [hnone] at hk
      cases hk

end ZeroCode.Sandbox.WallBudget
