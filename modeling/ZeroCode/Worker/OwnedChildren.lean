import ZeroCode.Worker.Reaper

/-!
# Who collects the status of a sandbox's child

A claim protects a child from the reaper from the moment it is in the registry. It is not
there yet when the call has forked and not registered, and it is there no longer when the
call gave up; and the registry knows pids, which the kernel gives out again. In a run in
which the reaper asks about no child outside its claim, and no pid returns while it is
still claimed or about to be reaped, every status goes to the call that waits for it.
-/

namespace ZeroCode.Worker.Reaper

open ZeroCode.Foundation ZeroCode.Sandbox

variable {C : Type*} [DecidableEq C]

/-- The reaper asks about no child of a call that does not hold its guard, and a fork returns no pid that
is in the registry or that the reaper is about to wait for. -/
def Claimed (s : State C) : Action C → Prop
  | .fork _ pid => (s.registry.poisoned = false → pid ∉ s.registry.owned) ∧ s.reaper ≠ .cleared pid
  | .test => ∀ pid c, s.reaper = .peeked pid → s.table.owner pid = some (some c) → (s.call c).guard = some pid
  | _ => True

/-- The condition of a step can be checked: it concerns at most one child. -/
instance (s : State C) (a : Action C) : Decidable (Claimed s a) :=
  match a with
  | .fork _ _ => inferInstanceAs (Decidable (_ ∧ _))
  | .test =>
    match hreaper : s.reaper with
    | .peeked pid =>
      match howner : s.table.owner pid with
      | some (some c) =>
        decidable_of_iff ((s.call c).guard = some pid)
          ⟨fun h pid' c' hp ho => by
            obtain rfl := ReaperPc.peeked.inj (hreaper.symm.trans hp)
            obtain rfl := Option.some.inj (Option.some.inj (howner.symm.trans ho))
            exact h, fun h => h pid c hreaper howner⟩
      | some none | none =>
        isTrue fun pid' c' hp ho => by
          obtain rfl := ReaperPc.peeked.inj (hreaper.symm.trans hp)
          cases howner.symm.trans ho
    | .idle | .draining | .cleared _ => isTrue fun pid' c' hp ho => by cases hreaper.symm.trans hp
  | .register _ | .setUp _ _ | .poll _ _ | .waitFails _ | .postKillWait _ | .drop _ | .exit _ _ | .orphan _ | .poison
  | .tick | .peek _ | .reap => isTrue trivial

/-- The call knows its child by this pid, or holds the guard of it. -/
def Pc.holds (pc : Pc) (pid : ℕ) : Prop := pc.child = some pid ∨ pc.guard = some pid

/-- Each waiting call has its child, each guard its pid in the registry and no other call has that pid, and
the reaper waits for no child of a call. -/
structure Safe (s : State C) : Prop where
  live : ∀ c pid, (s.call c).child = some pid → s.table.owner pid = some (some c)
  guarded : s.registry.poisoned = false → ∀ c pid, (s.call c).guard = some pid → pid ∈ s.registry.owned
  apart : s.registry.poisoned = false → ∀ c d pid, (s.call c).guard = some pid → (s.call d).holds pid → c = d
  cleared : ∀ pid, s.reaper = .cleared pid → ∀ c, s.table.owner pid ≠ some (some c)
  own : ∀ c, ∀ who ∈ s.consumers c, who = .call c
  found : ∀ c, (s.call c).outcome ≠ some .echild

/-- What a call has after a call was moved: the moved one by its new place, the others as before. -/
theorem State.setCall_eq_some {s : State C} {c d : C} {pc : Pc} {A : Type*} {f : Pc → Option A} {x : A}
    (h : f ((s.setCall d pc).call c) = some x) : (c = d ∧ f pc = some x) ∨ (c ≠ d ∧ f (s.call c) = some x) := by
  change f (Function.update s.call d pc c) = some x at h
  by_cases hc : c = d
  · subst hc
    rw [Function.update_self] at h
    exact Or.inl ⟨rfl, h⟩
  · rw [Function.update_of_ne hc] at h
    exact Or.inr ⟨hc, h⟩

/-- A wait gives the collector the status of the call that owned the pid, if anybody's. -/
theorem State.consumers_wait (s : State C) (who : Collector C) (pid : ℕ) :
    (s.wait who pid).consumers = s.consumers ∨
      ∃ c, s.table.owner pid = some (some c) ∧
        (s.wait who pid).consumers = Function.update s.consumers c (s.consumers c ++ [who]) := by
  simp only [State.wait]
  split
  · rename_i c _ howner
    exact Or.inr ⟨c, howner, rfl⟩
  · exact Or.inl rfl

/-- A wait leaves every other pid with its owner. -/
theorem State.owner_wait_of_ne (s : State C) (who : Collector C) {pid other : ℕ} (hne : other ≠ pid) :
    (s.wait who pid).table.owner other = s.table.owner other := by
  rcases ProcessTable.owner_of_wait s.table pid with hsame | ⟨_, htaken⟩
  · exact congrFun hsame other
  · exact (congrFun htaken other).trans (Function.update_of_ne hne _ _)

/-- A wait gives nobody a child. -/
theorem State.owner_of_wait {s : State C} (who : Collector C) {pid other : ℕ} {o : Option C}
    (h : (s.wait who pid).table.owner other = some o) : s.table.owner other = some o := by
  rcases ProcessTable.owner_of_wait s.table pid with hsame | ⟨_, htaken⟩
  · exact (congrFun hsame other).symm.trans h
  · by_cases hother : other = pid
    · subst hother
      have hnone : (s.wait who other).table.owner other = none :=
        (congrFun htaken other).trans (Function.update_self _ _ _)
      rw [hnone] at h
      cases h
    · rw [← State.owner_wait_of_ne s who hother]
      exact h

omit [DecidableEq C] in
/-- A wait takes `ECHILD` only from a pid that is nobody's. -/
theorem owner_of_settle_echild {table : ProcessTable (Option C) ProcessEnd} {pid : ℕ}
    (h : settle (table.wait pid).1 = some .echild) : table.owner pid = none := by
  refine ProcessTable.wait_echild_iff.mp ?_
  unfold settle at h
  split at h
  · cases h
  · split at h <;> cases h
  · assumption

/-- Registering does not touch the lock. -/
theorem Registry.poisoned_register (r : Registry) (pid : ℕ) : (r.register pid).poisoned = r.poisoned := by
  unfold register
  split <;> rfl

/-- Unregistering does not touch the lock. -/
theorem Registry.poisoned_unregister (r : Registry) (pid : ℕ) : (r.unregister pid).poisoned = r.poisoned := by
  unfold unregister
  split <;> rfl

namespace Safe

variable {s t : State C} {a : Action C}

/-- A call that waits for its child has it. -/
theorem live_of_effect (h : Safe s) (heffect : Effect s a t) (c : C) (pid : ℕ) (hchild : (t.call c).child = some pid) :
    t.table.owner pid = some (some c) := by
  -- a new child has a free pid, which is nobody's
  have spawned {new : ℕ} {o : Option C} (hfree : s.table.owner new = none) (hc : (s.call c).child = some pid) :
      Function.update s.table.owner new (some o) pid = some (some c) := by
    have hold := h.live c pid hc
    have hne : pid ≠ new := by
      intro hsame
      rw [hsame, hfree] at hold
      cases hold
    rw [Function.update_of_ne hne]
    exact hold
  cases heffect with
  | fork d new table hcall hfree howner =>
    change table.owner pid = _
    rw [howner]
    rcases State.setCall_eq_some hchild with ⟨rfl, hnew⟩ | ⟨_, hold⟩
    · obtain rfl := Option.some.inj hnew
      exact Function.update_self _ _ _
    · exact spawned hfree hold
  | register d new hcall =>
    rcases State.setCall_eq_some hchild with ⟨rfl, hnew⟩ | ⟨_, hold⟩
    · exact h.live c pid (by rw [hcall]; exact hnew)
    · exact h.live c pid hold
  | moved _ d new pc hchild' hguard hpc hkept houtcome =>
    rcases State.setCall_eq_some hchild with ⟨rfl, hnew⟩ | ⟨_, hold⟩
    · rcases hkept with hnone | hsome
      · rw [hnone] at hnew
        cases hnew
      · exact h.live c pid (by rw [hchild', ← hsome, hnew])
    · exact h.live c pid hold
  | settled _ d new outcome hchild' hguard houtcome =>
    rcases State.setCall_eq_some hchild with ⟨rfl, hnew⟩ | ⟨hne, hold⟩
    · cases hnew
    · have howner : s.table.owner pid = some (some c) := h.live c pid hold
      refine (s.owner_wait_of_ne (.call d) ?_).trans howner
      rintro rfl
      rw [h.live d pid hchild'] at howner
      exact hne (Option.some.inj (Option.some.inj howner)).symm
  | drop d new outcome hcall =>
    rcases State.setCall_eq_some hchild with ⟨rfl, hnew⟩ | ⟨_, hold⟩
    · cases hnew
    · exact h.live c pid hold
  | exit new status table howner =>
    change table.owner pid = _
    rw [howner]
    exact h.live c pid hchild
  | orphan new table hfree howner =>
    change table.owner pid = _
    rw [howner]
    exact spawned hfree hchild
  | poison => exact h.live c pid hchild
  | look _ reaper hreaper => exact h.live c pid hchild
  | test new hreaper hfree => exact h.live c pid hchild
  | reap new reaper hreaper hnext =>
    have howner := h.live c pid hchild
    refine (s.owner_wait_of_ne .reaper ?_).trans howner
    rintro rfl
    exact h.cleared pid hreaper c howner

/-- A guard keeps its pid in the registry: another call that released it would have had the same pid. -/
theorem guarded_of_effect (h : Safe s) (heffect : Effect s a t) (hsound : t.registry.poisoned = false) (c : C)
    (pid : ℕ) (hguard : (t.call c).guard = some pid) : pid ∈ t.registry.owned := by
  cases heffect with
  | fork d new table hcall hfree howner =>
    rcases State.setCall_eq_some hguard with ⟨rfl, hnew⟩ | ⟨_, hold⟩
    · cases hnew
    · exact h.guarded hsound c pid hold
  | register d new hcall =>
    have hbefore : s.registry.poisoned = false := (s.registry.poisoned_register new).symm.trans hsound
    have howned : (s.registry.register new).owned = insert new s.registry.owned := by
      simp [Registry.register, hbefore]
    change pid ∈ (s.registry.register new).owned
    rw [howned]
    rcases State.setCall_eq_some hguard with ⟨rfl, hnew⟩ | ⟨_, hold⟩
    · obtain rfl := Option.some.inj hnew
      exact Finset.mem_insert_self _ _
    · exact Finset.mem_insert_of_mem (h.guarded hbefore c pid hold)
  | moved _ d new pc hchild hguard' hpc hkept houtcome =>
    rcases State.setCall_eq_some hguard with ⟨rfl, hnew⟩ | ⟨_, hold⟩
    · exact h.guarded hsound c pid (by rw [hguard', ← hpc, hnew])
    · exact h.guarded hsound c pid hold
  | settled _ d new outcome hchild hguard' houtcome =>
    rcases State.setCall_eq_some hguard with ⟨rfl, hnew⟩ | ⟨_, hold⟩
    · exact h.guarded hsound c pid (hguard'.trans hnew)
    · exact h.guarded hsound c pid hold
  | drop d new outcome hcall =>
    have hbefore : s.registry.poisoned = false := (s.registry.poisoned_unregister new).symm.trans hsound
    have howned : (s.registry.unregister new).owned = s.registry.owned.erase new := by
      simp [Registry.unregister, hbefore]
    change pid ∈ (s.registry.unregister new).owned
    rw [howned]
    rcases State.setCall_eq_some hguard with ⟨rfl, hnew⟩ | ⟨hne, hold⟩
    · cases hnew
    · refine Finset.mem_erase.mpr ⟨?_, h.guarded hbefore c pid hold⟩
      rintro rfl
      exact hne (h.apart hbefore c d pid hold (Or.inr (by rw [hcall]; rfl)))
  | exit new status table howner => exact h.guarded hsound c pid hguard
  | orphan new table hfree howner => exact h.guarded hsound c pid hguard
  | poison => cases hsound
  | look _ reaper hreaper => exact h.guarded hsound c pid hguard
  | test new hreaper hfree => exact h.guarded hsound c pid hguard
  | reap new reaper hreaper hnext => exact h.guarded hsound c pid hguard

/-- What a call has after a call was moved to a place with no new pid, it had before. -/
theorem holds_of_setCall {c d : C} {pc : Pc} {pid : ℕ} (hpc : ∀ q, pc.holds q → (s.call d).holds q)
    (h : ((s.setCall d pc).call c).holds pid) : (s.call c).holds pid := by
  rcases h with hchild | hguard
  · rcases State.setCall_eq_some hchild with ⟨rfl, hnew⟩ | ⟨_, hold⟩
    · exact hpc pid (Or.inl hnew)
    · exact Or.inl hold
  · rcases State.setCall_eq_some hguard with ⟨rfl, hnew⟩ | ⟨_, hold⟩
    · exact hpc pid (Or.inr hnew)
    · exact Or.inr hold

/-- Moving a call to a place with no new guard and no new pid keeps the pids apart. -/
theorem apart_setCall (h : Safe s) (hsound : s.registry.poisoned = false) (b : C) (pc : Pc)
    (hguards : ∀ q, pc.guard = some q → (s.call b).guard = some q) (hpc : ∀ q, pc.holds q → (s.call b).holds q)
    (c d : C) (pid : ℕ) (hguard : ((s.setCall b pc).call c).guard = some pid)
    (hholds : ((s.setCall b pc).call d).holds pid) : c = d := by
  have hd : (s.call d).holds pid := holds_of_setCall hpc hholds
  rcases State.setCall_eq_some hguard with ⟨rfl, hnew⟩ | ⟨_, hold⟩
  · exact h.apart hsound c d pid (hguards pid hnew) hd
  · exact h.apart hsound c d pid hold hd

/-- The pid of a guard is no other call's. -/
theorem apart_of_effect (h : Safe s) (hclaimed : Claimed s a) (heffect : Effect s a t)
    (hsound : t.registry.poisoned = false) (c d : C) (pid : ℕ) (hguard : (t.call c).guard = some pid)
    (hholds : (t.call d).holds pid) : c = d := by
  cases heffect with
  | fork b new table hcall hfree howner =>
    rcases State.setCall_eq_some hguard with ⟨rfl, hnew⟩ | ⟨_, hc⟩
    · cases hnew
    · rcases hholds with hchild | hguard'
      · rcases State.setCall_eq_some hchild with ⟨rfl, hnew⟩ | ⟨_, hd⟩
        -- the new pid is not in the registry, so nobody guards it
        · obtain rfl := Option.some.inj hnew
          exact absurd (h.guarded hsound c new hc) (hclaimed.1 hsound)
        · exact h.apart hsound c d pid hc (Or.inl hd)
      · rcases State.setCall_eq_some hguard' with ⟨rfl, hnew⟩ | ⟨_, hd⟩
        · cases hnew
        · exact h.apart hsound c d pid hc (Or.inr hd)
  | register b new hcall =>
    have hbefore : s.registry.poisoned = false := (s.registry.poisoned_register new).symm.trans hsound
    have hlive : s.table.owner new = some (some b) := h.live b new (by rw [hcall]; rfl)
    have hd : (s.call d).holds pid := by
      refine holds_of_setCall (fun q hq => ?_) hholds
      have hsame : some new = some q := hq.elim id id
      exact Or.inl (by rw [hcall]; exact hsame)
    rcases State.setCall_eq_some hguard with ⟨rfl, hnew⟩ | ⟨_, hc⟩
    · obtain rfl := Option.some.inj hnew
      rcases hd with hchild | hguard'
      · rw [h.live d new hchild] at hlive
        exact (Option.some.inj (Option.some.inj hlive)).symm
      · exact (h.apart hbefore d c new hguard' (Or.inl (by rw [hcall]; rfl))).symm
    · exact h.apart hbefore c d pid hc hd
  | moved _ b new pc hchild hguard' hpc hkept houtcome =>
    have hguards : ∀ q, pc.guard = some q → (s.call b).guard = some q := by
      intro q hq
      rw [hguard', ← hpc, hq]
    refine h.apart_setCall hsound b pc hguards (fun q hq => ?_) c d pid hguard hholds
    rcases hq with hq | hq
    · rcases hkept with hnone | hsome
      · rw [hnone] at hq
        cases hq
      · exact Or.inl (by rw [hchild, ← hsome, hq])
    · exact Or.inr (hguards q hq)
  | settled _ b new outcome hchild hguard' houtcome =>
    refine h.apart_setCall hsound b (.finished new outcome) (fun q hq => hguard'.trans hq) (fun q hq => ?_) c d pid hguard hholds
    rcases hq with hq | hq
    · cases hq
    · exact Or.inr (hguard'.trans hq)
  | drop b new outcome hcall =>
    have hbefore : s.registry.poisoned = false := (s.registry.poisoned_unregister new).symm.trans hsound
    refine h.apart_setCall hbefore b (.returned outcome) (fun q hq => ?_) (fun q hq => ?_) c d pid hguard hholds
    · cases hq
    · rcases hq with hq | hq <;> cases hq
  | exit new status table howner => exact h.apart hsound c d pid hguard hholds
  | orphan new table hfree howner => exact h.apart hsound c d pid hguard hholds
  | poison => cases hsound
  | look _ reaper hreaper => exact h.apart hsound c d pid hguard hholds
  | test new hreaper hfree => exact h.apart hsound c d pid hguard hholds
  | reap new reaper hreaper hnext => exact h.apart hsound c d pid hguard hholds

/-- A pid that the registry does not own is no claimed child, and stays none until the reaper waits for it. -/
theorem cleared_of_effect (h : Safe s) (hclaimed : Claimed s a) (heffect : Effect s a t) (pid : ℕ)
    (hcleared : t.reaper = .cleared pid) (c : C) : t.table.owner pid ≠ some (some c) := by
  cases heffect with
  | fork d new table hcall hfree howner =>
    change table.owner pid ≠ _
    rw [howner]
    have hne : pid ≠ new := by
      rintro rfl
      exact hclaimed.2 hcleared
    rw [Function.update_of_ne hne]
    exact h.cleared pid hcleared c
  | register d new hcall => exact h.cleared pid hcleared c
  | moved _ d new pc hchild hguard hpc hkept houtcome => exact h.cleared pid hcleared c
  | settled _ d new outcome hchild hguard houtcome =>
    intro howner
    exact h.cleared pid hcleared c (State.owner_of_wait (.call d) howner)
  | drop d new outcome hcall => exact h.cleared pid hcleared c
  | exit new status table howner =>
    change table.owner pid ≠ _
    rw [howner]
    exact h.cleared pid hcleared c
  | orphan new table hfree howner =>
    change table.owner pid ≠ _
    rw [howner]
    by_cases hpid : pid = new
    · subst hpid
      simp
    · rw [Function.update_of_ne hpid]
      exact h.cleared pid hcleared c
  | poison => exact h.cleared pid hcleared c
  | look _ reaper hreaper => exact absurd hcleared (hreaper pid)
  | test new hreaper hfree =>
    obtain rfl := ReaperPc.cleared.inj hcleared
    intro howner
    have hguard : (s.call c).guard = some new := hclaimed new c hreaper howner
    simp only [Registry.isOwned, Bool.or_eq_false_iff, decide_eq_false_iff_not] at hfree
    exact hfree.2 (h.guarded hfree.1 c new hguard)
  | reap new reaper hreaper hnext => exact absurd hcleared (hnext pid)

/-- Whoever collects a status is the call it belongs to. -/
theorem own_of_effect (h : Safe s) (heffect : Effect s a t) (c : C) (who : Collector C) (hwho : who ∈ t.consumers c) :
    who = .call c := by
  cases heffect with
  | fork d new table hcall hfree howner => exact h.own c who hwho
  | register d new hcall => exact h.own c who hwho
  | moved _ d new pc hchild hguard hpc hkept houtcome => exact h.own c who hwho
  | settled _ d new outcome hchild hguard houtcome =>
    have howner : s.table.owner new = some (some d) := h.live d new hchild
    change who ∈ (s.wait (.call d) new).consumers c at hwho
    rcases s.consumers_wait (.call d) new with hsame | ⟨b, hb, htaken⟩
    · rw [hsame] at hwho
      exact h.own c who hwho
    · rw [howner] at hb
      obtain rfl := Option.some.inj (Option.some.inj hb)
      rw [htaken] at hwho
      by_cases hc : c = d
      · subst hc
        rw [Function.update_self] at hwho
        rcases List.mem_append.mp hwho with hold | hnew
        · exact h.own c who hold
        · exact List.mem_singleton.mp hnew
      · rw [Function.update_of_ne hc] at hwho
        exact h.own c who hwho
  | drop d new outcome hcall => exact h.own c who hwho
  | exit new status table howner => exact h.own c who hwho
  | orphan new table hfree howner => exact h.own c who hwho
  | poison => exact h.own c who hwho
  | look _ reaper hreaper => exact h.own c who hwho
  | test new hreaper hfree => exact h.own c who hwho
  | reap new reaper hreaper hnext =>
    change who ∈ (s.wait .reaper new).consumers c at hwho
    rcases s.consumers_wait .reaper new with hsame | ⟨b, hb, _⟩
    · rw [hsame] at hwho
      exact h.own c who hwho
    · exact absurd hb (h.cleared new hreaper b)

/-- No call is told that it has no child. -/
theorem found_of_effect (h : Safe s) (heffect : Effect s a t) (c : C) : (t.call c).outcome ≠ some .echild := by
  intro hechild
  cases heffect with
  | fork d new table hcall hfree howner =>
    rcases State.setCall_eq_some hechild with ⟨rfl, hnew⟩ | ⟨_, hold⟩
    · cases hnew
    · exact h.found c hold
  | register d new hcall =>
    rcases State.setCall_eq_some hechild with ⟨rfl, hnew⟩ | ⟨_, hold⟩
    · cases hnew
    · exact h.found c hold
  | moved _ d new pc hchild hguard hpc hkept houtcome =>
    rcases State.setCall_eq_some hechild with ⟨rfl, hnew⟩ | ⟨_, hold⟩
    · exact houtcome hnew
    · exact h.found c hold
  | settled _ d new outcome hchild hguard houtcome =>
    rcases State.setCall_eq_some hechild with ⟨rfl, hnew⟩ | ⟨_, hold⟩
    · obtain rfl := Option.some.inj hnew
      have hnone : s.table.owner new = none := owner_of_settle_echild houtcome
      rw [h.live c new hchild] at hnone
      cases hnone
    · exact h.found c hold
  | drop d new outcome hcall =>
    rcases State.setCall_eq_some hechild with ⟨rfl, hnew⟩ | ⟨_, hold⟩
    · exact h.found c (by rw [hcall]; exact hnew)
    · exact h.found c hold
  | exit new status table howner => exact h.found c hechild
  | orphan new table hfree howner => exact h.found c hechild
  | poison => exact h.found c hechild
  | look _ reaper hreaper => exact h.found c hechild
  | test new hreaper hfree => exact h.found c hechild
  | reap new reaper hreaper hnext => exact h.found c hechild

/-- A step that meets the condition keeps the invariant. -/
theorem of_step (h : Safe s) (hclaimed : Claimed s a) (hstep : step s a = some t) : Safe t :=
  have heffect := effect_of_step hstep
  { live := h.live_of_effect heffect
    guarded := h.guarded_of_effect heffect
    apart := h.apart_of_effect hclaimed heffect
    cleared := h.cleared_of_effect hclaimed heffect
    own := h.own_of_effect heffect
    found := h.found_of_effect heffect }

omit [DecidableEq C] in
/-- Nothing is claimed before the first call. -/
theorem init : Safe (State.init : State C) where
  live := by simp [State.init, Pc.child]
  guarded := by simp [State.init, Pc.guard]
  apart := by simp [State.init, Pc.guard]
  cleared := by simp [State.init]
  own := by simp [State.init]
  found := by simp [State.init, Pc.outcome]

end Safe

/-- In a run whose steps meet the condition, the status of a call's child is collected by nobody but the
call, and no call is told that it has no child. -/
theorem status_goes_to_its_call {s : State C} (reached : Reaches step Claimed State.init s) :
    (∀ c, ∀ who ∈ s.consumers c, who = .call c) ∧ ∀ c, (s.call c).outcome ≠ some .echild := by
  have hsafe : Safe s :=
    reached.invariant Safe Safe.init fun s a t h hclaimed hstep => h.of_step hclaimed hstep
  exact ⟨hsafe.own, hsafe.found⟩

/-- A claimed child and an orphan have ended; the reaper leaves the one and takes the other. -/
def claimedRun : List (Action ℕ) :=
  [.fork 0 7, .register 0, .setUp 0 true, .exit 7 .success, .orphan 8, .exit 8 .success, .tick, .peek (some 7), .test,
    .tick, .peek (some 8), .test, .reap, .poll 0 false, .drop 0]

/-- The call of that run collects the status of its child. -/
theorem status_goes_to_its_call_claimedRun :
    (lastState (checkedStep step Claimed) .init claimedRun).consumers 0 = [.call 0] ∧
      (∀ c, ∀ who ∈ (lastState (checkedStep step Claimed) .init claimedRun).consumers c, who = .call c) ∧
        ∀ c, ((lastState (checkedStep step Claimed) .init claimedRun).call c).outcome ≠ some .echild :=
  ⟨by decide +kernel, status_goes_to_its_call (.of_runActions claimedRun (runActions_eq_lastState (by decide)))⟩

/-- A child ends before its call registers it, and the reaper asks about it in between. -/
def stolenRun : List (Action ℕ) :=
  [.fork 0 7, .exit 7 .success, .tick, .peek (some 7), .test, .register 0, .setUp 0 true, .reap, .poll 0 false]

/-- The reaper takes that child, and the call is told that it has none. -/
theorem status_stolen :
    ¬ ∀ s : State ℕ, Reachable step .init s →
      (∀ c, ∀ who ∈ s.consumers c, who = .call c) ∧ ∀ c, (s.call c).outcome ≠ some .echild := by
  intro h
  obtain ⟨_, hfound⟩ := h _ (.of_runActions stolenRun (runActions_eq_lastState (by decide)))
  exact hfound 0 (by decide +kernel)

end ZeroCode.Worker.Reaper
