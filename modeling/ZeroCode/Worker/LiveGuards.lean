import ZeroCode.Worker.Reaper

/-!
# The registry and the guards

A guard registers its pid when it is made and unregisters it when it is dropped. The
registry is a set, so two guards of one pid share an entry, and the first drop removes it.
A pid is free for another child as soon as its status is collected, while the guard of the
call that collected it lives on until the call returns.
-/

namespace ZeroCode.Worker.Reaper

open ZeroCode.Foundation ZeroCode.Sandbox

/-- The registry, and the pids of the guards that are alive. -/
structure Guards (G : Type*) where
  registry : Registry
  live : G → Option ℕ

/-- A guard is made or dropped. -/
inductive GuardAction (G : Type*)
  | register (g : G) (pid : ℕ)
  | drop (g : G)
  deriving DecidableEq, Repr

/-- The registry has exactly the pids of the guards that are alive. -/
def Guards.Reflects {G : Type*} (s : Guards G) : Prop :=
  ∀ pid, s.registry.isOwned pid = true ↔ ∃ g, s.live g = some pid

/-- No guard is alive. -/
def Guards.init {G : Type*} : Guards G := ⟨⟨false, ∅⟩, fun _ => none⟩

/-- A guard that is dropped is the only one of its pid. -/
def Guards.Alone {G : Type*} (s : Guards G) : GuardAction G → Prop
  | .register _ _ => True
  | .drop g => ∀ pid, s.live g = some pid → ∀ other, s.live other = some pid → other = g

section Steps

variable {G : Type*} [DecidableEq G]

/-- Make or drop a guard, with the lock of the registry held. -/
def Guards.step (s : Guards G) : GuardAction G → Option (Guards G)
  | .register g pid =>
    match s.live g with
    | none => some ⟨s.registry.register pid, Function.update s.live g (some pid)⟩
    | some _ => none
  | .drop g =>
    match s.live g with
    | some pid => some ⟨s.registry.unregister pid, Function.update s.live g none⟩
    | none => none

/-- Making a guard. -/
theorem Guards.step_register {s : Guards G} {g : G} (hnone : s.live g = none) (pid : ℕ) :
    s.step (.register g pid) = some ⟨s.registry.register pid, Function.update s.live g (some pid)⟩ := by
  rw [Guards.step, hnone]

/-- Dropping a guard. -/
theorem Guards.step_drop {s : Guards G} {g : G} {pid : ℕ} (hlive : s.live g = some pid) :
    s.step (.drop g) = some ⟨s.registry.unregister pid, Function.update s.live g none⟩ := by
  rw [Guards.step, hlive]

/-- Neither kind of step poisons the lock. -/
theorem Guards.poisoned_of_step {s t : Guards G} {a : GuardAction G} (hstep : s.step a = some t) :
    t.registry.poisoned = s.registry.poisoned := by
  cases a with
  | register g pid =>
    simp only [Guards.step] at hstep
    split at hstep <;> cases hstep
    simp only [Registry.register]
    split <;> rfl
  | drop g =>
    simp only [Guards.step] at hstep
    split at hstep <;> cases hstep
    simp only [Registry.unregister]
    split <;> rfl

/-- The guards after one was dropped. -/
theorem update_none_iff (live : G → Option ℕ) (g other : G) (pid : ℕ) :
    Function.update live g none other = some pid ↔ other ≠ g ∧ live other = some pid := by
  by_cases hsame : other = g
  · subst hsame
    simp
  · simp [hsame]

/-- The guards after one was made. -/
theorem update_some_iff {live : G → Option ℕ} {g : G} (hnone : live g = none) (made : ℕ) (other : G) (pid : ℕ) :
    Function.update live g (some made) other = some pid ↔ other = g ∧ made = pid ∨ live other = some pid := by
  by_cases hsame : other = g
  · subst hsame
    simp [hnone]
  · simp [hsame]

/-- A new guard is reflected. -/
theorem Guards.Reflects.register {s : Guards G} (hsound : s.registry.poisoned = false) (h : s.Reflects) {g : G}
    (hnone : s.live g = none) (pid : ℕ) :
    Guards.Reflects ⟨s.registry.register pid, Function.update s.live g (some pid)⟩ := by
  intro other
  have howned : (s.registry.register pid).isOwned other = true ↔ other = pid ∨ s.registry.isOwned other = true := by
    simp [Registry.isOwned, Registry.register, hsound]
  simp only [update_some_iff hnone]
  rw [howned, h other]
  constructor
  · rintro (rfl | ⟨g', hg'⟩)
    · exact ⟨g, Or.inl ⟨rfl, rfl⟩⟩
    · exact ⟨g', Or.inr hg'⟩
  · rintro ⟨g', ⟨_, rfl⟩ | hg'⟩
    · exact Or.inl rfl
    · exact Or.inr ⟨g', hg'⟩

/-- After a drop the registry reflects the guards exactly if it was the only one of its pid. -/
theorem Guards.Reflects.drop_iff {s : Guards G} (hsound : s.registry.poisoned = false) (h : s.Reflects) {g : G}
    {pid : ℕ} (hlive : s.live g = some pid) :
    Guards.Reflects ⟨s.registry.unregister pid, Function.update s.live g none⟩ ↔
      ∀ other, s.live other = some pid → other = g := by
  have howned (p : ℕ) : (s.registry.unregister pid).isOwned p = true ↔ p ≠ pid ∧ ∃ g', s.live g' = some p := by
    rw [← h p]
    simp [Registry.isOwned, Registry.unregister, hsound]
  simp only [Guards.Reflects, howned, update_none_iff]
  constructor
  · intro hreflects other hother
    by_contra hne
    exact ((hreflects pid).mpr ⟨other, hne, hother⟩).1 rfl
  · intro halone p
    constructor
    · rintro ⟨hne, g', hg'⟩
      refine ⟨g', ?_, hg'⟩
      rintro rfl
      exact hne (Option.some.inj (hg'.symm.trans hlive))
    · rintro ⟨g', hsame, hg'⟩
      refine ⟨?_, g', hg'⟩
      rintro rfl
      exact hsame (halone g' hg')

/-- A registry that reflects the guards does so after a step exactly if a guard that was dropped was the only one of
its pid. -/
theorem Guards.reflects_of_step {s t : Guards G} {a : GuardAction G} (hsound : s.registry.poisoned = false)
    (h : s.Reflects) (hstep : s.step a = some t) : t.Reflects ↔ s.Alone a := by
  cases a with
  | register g pid =>
    simp only [Guards.step] at hstep
    split at hstep <;> cases hstep
    rename_i hnone
    exact ⟨fun _ => trivial, fun _ => h.register hsound hnone pid⟩
  | drop g =>
    simp only [Guards.step] at hstep
    split at hstep <;> cases hstep
    rename_i pid hlive
    rw [h.drop_iff hsound hlive]
    constructor
    · intro halone pid' hlive'
      cases hlive.symm.trans hlive'
      exact halone
    · exact fun halone => halone pid hlive

/-- For every sequence of registrations and drops: in every state of it a pid is owned exactly if a guard for it is
alive, exactly if every guard that is dropped is then the only one of its pid. -/
theorem registry_reflects_iff {actions : List (GuardAction G)}
    (hsome : (runActions Guards.step .init actions).isSome = true) :
    (∀ before, before <+: actions → ∀ s, runActions Guards.step .init before = some s → s.Reflects) ↔
      Along Guards.step Guards.Alone .init actions := by
  have hinit : (Guards.init : Guards G).Reflects := by
    intro pid
    simp [Guards.init, Registry.isOwned]
  have hkept : (∀ before, before <+: actions → ∀ s : Guards G, runActions Guards.step .init before = some s →
      s.registry.poisoned = false ∧ s.Reflects) ↔ Along Guards.step Guards.Alone .init actions := by
    refine along_iff_of_kept (fun s : Guards G => s.registry.poisoned = false ∧ s.Reflects) ?_ ⟨rfl, hinit⟩ hsome
    intro s a t hgood hstep
    rw [Guards.poisoned_of_step hstep, Guards.reflects_of_step hgood.1 hgood.2 hstep]
    exact and_iff_right hgood.1
  rw [← hkept]
  refine forall₂_congr fun before _ => forall₂_congr fun s run => ?_
  have hsound : s.registry.poisoned = false := (Reachable.of_runActions before run).invariant
    (fun s => s.registry.poisoned = false) rfl fun _ _ _ hs _ hstep => (Guards.poisoned_of_step hstep).trans hs
  exact (and_iff_right hsound).symm

end Steps

/-- A guard is dropped before the next one is made, even for the same pid. -/
def successiveGuards : List (GuardAction Bool) := [.register true 7, .drop true, .register false 7]

/-- Its registry reflects the guards all along, and so at the end. -/
theorem registry_reflects_successive : (lastState Guards.step .init successiveGuards).Reflects := by
  have halong : Along Guards.step Guards.Alone .init successiveGuards := by
    refine ⟨trivial, fun s hs => ⟨fun pid hpid other hother => ?_, fun t ht => ⟨trivial, fun _ _ => trivial⟩⟩⟩
    cases hs
    cases other with
    | true => rfl
    | false => cases hother
  exact (registry_reflects_iff (by decide)).mpr halong successiveGuards List.prefix_rfl _
    (runActions_eq_lastState (by decide))

/-- The call that collected the status of its child returns only after the pid was given to the child of another call. -/
def reusedRun : List (Action Bool) :=
  [.fork true 7, .register true, .setUp true true, .exit 7 .success, .poll true false, .fork false 7, .register false,
    .drop true]

/-- Two guards of one pid are made, and the first is dropped: the pid is not owned, although the second guard is alive.
The calls of the worker get there. -/
theorem owned_child_forgotten :
    (lastState (Guards.step (G := Bool)) .init [.register true 7, .register false 7, .drop true]).registry.isOwned 7 =
        false ∧
      (lastState step .init reusedRun).registry.isOwned 7 = false ∧
      ((lastState step .init reusedRun).call false).guard = some 7 ∧
      ((lastState step .init reusedRun).call false).child = some 7 ∧
      ¬ ∀ (actions : List (GuardAction Bool)) (s : Guards Bool),
        runActions Guards.step .init actions = some s → s.Reflects := by
  have hforgotten : (lastState (Guards.step (G := Bool)) .init
      [.register true 7, .register false 7, .drop true]).registry.isOwned 7 = false := by decide +kernel
  refine ⟨hforgotten, by decide +kernel, by decide +kernel, by decide +kernel, fun hall => ?_⟩
  have hreflects := hall [.register true 7, .register false 7, .drop true] _ (runActions_eq_lastState (by decide))
  have howned := (hreflects 7).mpr ⟨false, by decide +kernel⟩
  exact Bool.false_ne_true (hforgotten.symm.trans howned)

section Calls

variable {C : Type*} [DecidableEq C]

/-- The guards of the calls. -/
def State.guards (s : State C) : Guards C := ⟨s.registry, fun c => (s.call c).guard⟩

/-- A call that moves on has the guard of its new place. -/
theorem live_setCall (s : State C) (c : C) (pc : Pc) :
    (s.setCall c pc).guards.live = Function.update s.guards.live c pc.guard := by
  funext d
  change (Function.update s.call c pc d).guard = _
  by_cases hsame : d = c
  · subst hsame
    simp
  · rw [Function.update_of_ne hsame, Function.update_of_ne hsame]
    rfl

/-- A call that moves on with its guard changes nothing about the guards. -/
theorem guards_setCall {s : State C} {c : C} {pc : Pc} (h : pc.guard = (s.call c).guard) :
    (s.setCall c pc).guards = s.guards := by
  have hlive : (s.setCall c pc).guards.live = s.guards.live := by
    rw [live_setCall, h]
    exact Function.update_eq_self c s.guards.live
  exact congrArg (Guards.mk s.registry) hlive

/-- A step of the worker that poisons no lock makes a guard, drops the one of its call, or leaves the guards alone. -/
theorem guards_of_step {s t : State C} {a : Action C} (hstep : step s a = some t) (hne : a ≠ .poison) :
    t.guards = s.guards ∨ (∃ c pid, s.guards.step (.register c pid) = some t.guards) ∨
      ∃ c, a = .drop c ∧ s.guards.step (.drop c) = some t.guards := by
  cases effect_of_step hstep with
  | fork c pid table hcall =>
    have hidle : Pc.guard (.forked pid) = (s.call c).guard := by
      rw [hcall]
      rfl
    exact Or.inl (guards_setCall hidle)
  | register c pid hcall =>
    refine Or.inr (Or.inl ⟨c, pid, ?_⟩)
    rw [Guards.step_register (congrArg Pc.guard hcall : s.guards.live c = none)]
    exact congrArg (fun live => some (Guards.mk (s.registry.register pid) live))
      (live_setCall s c (.registered pid)).symm
  | moved a c pid pc hchild hguard hpc => exact Or.inl (guards_setCall (hpc.trans hguard.symm))
  | settled a c pid outcome hchild hguard =>
    exact Or.inl (@guards_setCall C _ (s.wait (.call c) pid) c (.finished pid outcome) hguard.symm)
  | drop c pid outcome hcall =>
    refine Or.inr (Or.inr ⟨c, rfl, ?_⟩)
    rw [Guards.step_drop (congrArg Pc.guard hcall : s.guards.live c = some pid)]
    exact congrArg (fun live => some (Guards.mk (s.registry.unregister pid) live))
      (live_setCall s c (.returned outcome)).symm
  | exit | orphan | look | test | reap => exact Or.inl rfl
  | poison => exact absurd rfl hne

/-- In every run of the worker that poisons no lock and in which a guard that is dropped is the only one of its pid, a
pid is owned exactly if a call holds the guard of it. -/
theorem worker_registry_reflects {s : State C}
    (h : Reaches step (fun s a => a ≠ .poison ∧ ∀ c, a = .drop c → s.guards.Alone (.drop c)) .init s) :
    ∀ pid, s.registry.isOwned pid = true ↔ ∃ c, (s.call c).guard = some pid := by
  have hinit : (State.init : State C).guards.registry.poisoned = false ∧ (State.init : State C).guards.Reflects := by
    refine ⟨rfl, fun pid => ?_⟩
    simp [State.guards, State.init, Registry.isOwned, Pc.guard]
  refine (h.invariant (fun s => s.guards.registry.poisoned = false ∧ s.guards.Reflects) hinit ?_).2
  rintro s a t ⟨hsound, hreflects⟩ ⟨hne, halone⟩ hstep
  rcases guards_of_step hstep hne with hsame | ⟨c, pid, hmade⟩ | ⟨c, hdrop, hdropped⟩
  · rw [hsame]
    exact ⟨hsound, hreflects⟩
  · exact ⟨(Guards.poisoned_of_step hmade).trans hsound, (Guards.reflects_of_step hsound hreflects hmade).mpr trivial⟩
  · exact ⟨(Guards.poisoned_of_step hdropped).trans hsound,
      (Guards.reflects_of_step hsound hreflects hdropped).mpr (halone c hdrop)⟩

end Calls

end ZeroCode.Worker.Reaper
