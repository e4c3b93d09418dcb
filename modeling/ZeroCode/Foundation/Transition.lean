import Mathlib.Data.Option.Basic

/-!
# Runs of a partial step function

A system is given by its step function alone: an action that is not enabled in a
state has no successor. `Reaches` keeps, beside the step itself, a condition which
every step of the run meets; the unconditional case is `Reachable`. An invariant is
proved once for a single step and then holds along every run.
-/

namespace ZeroCode.Foundation

variable {S A : Type*}

/-- Execute the actions in order, failing at the first one that is not enabled. -/
def runActions (step : S → A → Option S) : S → List A → Option S
  | s, [] => some s
  | s, a :: rest => (step s a).bind fun t => runActions step t rest

/-- The states reached from `start` by steps that all meet `allowed`. -/
inductive Reaches (step : S → A → Option S) (allowed : S → A → Prop) (start : S) : S → Prop
  | refl : Reaches step allowed start start
  | tail {s t : S} {a : A} (before : Reaches step allowed start s) (meets : allowed s a)
      (taken : step s a = some t) : Reaches step allowed start t

/-- Reachability without a condition on the steps. -/
abbrev Reachable (step : S → A → Option S) (start : S) : S → Prop :=
  Reaches step (fun _ _ => True) start

/-- What one allowed step preserves holds along every allowed run. -/
theorem Reaches.invariant {step : S → A → Option S} {allowed : S → A → Prop} {start s : S}
    (reached : Reaches step allowed start s) (inv : S → Prop) (initial : inv start)
    (preserved : ∀ s a t, inv s → allowed s a → step s a = some t → inv t) : inv s := by
  induction reached with
  | refl => exact initial
  | tail _ meets taken ih => exact preserved _ _ _ ih meets taken

/-- An allowed run is a run. -/
theorem Reaches.reachable {step : S → A → Option S} {allowed : S → A → Prop} {start s : S}
    (reached : Reaches step allowed start s) : Reachable step start s := by
  induction reached with
  | refl => exact .refl
  | tail _ _ taken ih => exact .tail ih trivial taken

/-- A run whose steps meet a condition meets every weaker one. -/
theorem Reaches.mono {step : S → A → Option S} {allowed weaker : S → A → Prop} {start s : S}
    (reached : Reaches step allowed start s) (himp : ∀ s a, allowed s a → weaker s a) :
    Reaches step weaker start s := by
  induction reached with
  | refl => exact .refl
  | tail _ meets taken ih => exact .tail ih (himp _ _ meets) taken

/-- Allowed runs compose. -/
theorem Reaches.trans {step : S → A → Option S} {allowed : S → A → Prop} {start middle s : S}
    (first : Reaches step allowed start middle) (second : Reaches step allowed middle s) :
    Reaches step allowed start s := by
  induction second with
  | refl => exact first
  | tail _ meets taken ih => exact .tail ih meets taken

/-- A fact of one state which every allowed step keeps is still there at the end of the run. -/
theorem Reaches.stable {step : S → A → Option S} {allowed : S → A → Prop} {start s t : S}
    (inv fact : S → Prop) (reached : Reaches step allowed start s) (initial : inv start)
    (preserved : ∀ s a t, inv s → allowed s a → step s a = some t → inv t)
    (kept : ∀ s a t, inv s → allowed s a → step s a = some t → fact s → fact t)
    (later : Reaches step allowed s t) (holds : fact s) : fact t := by
  have hs := reached.invariant inv initial preserved
  refine (later.invariant (fun u => inv u ∧ fact u) ⟨hs, holds⟩ ?_).2
  intro s a t both meets taken
  exact ⟨preserved s a t both.1 meets taken, kept s a t both.1 meets taken both.2⟩

/-- Executing the actions reaches their final state. -/
theorem Reachable.of_runActions {step : S → A → Option S} {start s : S} (actions : List A)
    (run : runActions step start actions = some s) : Reachable step start s := by
  induction actions generalizing start with
  | nil =>
    simp only [runActions, Option.some.injEq] at run
    subst s
    exact .refl
  | cons a rest ih =>
    obtain ⟨middle, taken, run⟩ := Option.bind_eq_some_iff.mp run
    have first : Reachable step start middle := .tail .refl trivial taken
    exact first.trans (ih run)

/-- The state after the actions, as far as they can be executed at all. -/
def lastState (step : S → A → Option S) (start : S) (actions : List A) : S :=
  (runActions step start actions).getD start

/-- Actions that can be executed end in their last state. -/
theorem runActions_eq_lastState {step : S → A → Option S} {start : S} {actions : List A}
    (hsome : (runActions step start actions).isSome = true) :
    runActions step start actions = some (lastState step start actions) := by
  obtain ⟨s, hs⟩ := Option.isSome_iff_exists.mp hsome
  rw [lastState, hs, Option.getD_some]

/-- Executing actions that all meet a condition of their own reaches their final state by an allowed run. -/
theorem Reaches.of_runActions_forall {step : S → A → Option S} {allowed : A → Prop} {start s : S} (actions : List A)
    (meets : ∀ a ∈ actions, allowed a) (run : runActions step start actions = some s) :
    Reaches step (fun _ a => allowed a) start s := by
  induction actions generalizing start with
  | nil =>
    simp only [runActions, Option.some.injEq] at run
    subst s
    exact .refl
  | cons a rest ih =>
    obtain ⟨middle, taken, run⟩ := Option.bind_eq_some_iff.mp run
    have first : Reaches step (fun _ a => allowed a) start middle := .tail .refl (meets a List.mem_cons_self) taken
    exact first.trans (ih (fun b hb => meets b (List.mem_cons_of_mem a hb)) run)

/-- The step function that refuses an action which does not meet the condition. -/
def checkedStep (step : S → A → Option S) (allowed : S → A → Prop) [∀ s a, Decidable (allowed s a)]
    (s : S) (a : A) : Option S :=
  if allowed s a then step s a else none

/-- A run of the checked steps is a run whose steps meet the condition as well. -/
theorem Reaches.of_checkedStep {step : S → A → Option S} {allowed condition : S → A → Prop}
    [∀ s a, Decidable (allowed s a)] {start s : S} (reached : Reaches (checkedStep step allowed) condition start s) :
    Reaches step (fun s a => condition s a ∧ allowed s a) start s := by
  induction reached with
  | refl => exact .refl
  | tail _ meets taken ih =>
    unfold checkedStep at taken
    split at taken
    · rename_i hallowed
      exact .tail ih ⟨meets, hallowed⟩ taken
    · cases taken

/-- Executing the actions under the condition reaches their final state by an allowed run. -/
theorem Reaches.of_runActions {step : S → A → Option S} {allowed : S → A → Prop}
    [∀ s a, Decidable (allowed s a)] {start s : S} (actions : List A)
    (run : runActions (checkedStep step allowed) start actions = some s) : Reaches step allowed start s :=
  (Reachable.of_runActions actions run).of_checkedStep.mono fun _ _ meets => meets.2

/-- Every action meets the condition in the state in which it is taken. -/
def Along (step : S → A → Option S) (allowed : S → A → Prop) : S → List A → Prop
  | _, [] => True
  | s, a :: rest => allowed s a ∧ ∀ t, step s a = some t → Along step allowed t rest

/-- Actions that can be executed under the condition meet it. -/
theorem along_of_checkedStep {step : S → A → Option S} {allowed : S → A → Prop} [∀ s a, Decidable (allowed s a)]
    {start : S} {actions : List A} (hsome : (runActions (checkedStep step allowed) start actions).isSome = true) :
    Along step allowed start actions := by
  induction actions generalizing start with
  | nil => trivial
  | cons a rest ih =>
    obtain ⟨s, run⟩ := Option.isSome_iff_exists.mp hsome
    obtain ⟨middle, taken, run⟩ := Option.bind_eq_some_iff.mp run
    obtain ⟨hallowed, taken⟩ := Option.ite_none_right_eq_some.mp taken
    refine ⟨hallowed, fun t ht => ?_⟩
    cases taken.symm.trans ht
    exact ih (Option.isSome_iff_exists.mpr ⟨s, run⟩)

/-- Where a fault arises exactly in the steps that miss a condition and never heals, a run ends without the fault
exactly if every step of it meets the condition. -/
theorem along_iff_of_fault {step : S → A → Option S} {allowed : S → A → Prop} (inv fault : S → Prop)
    (preserved : ∀ s a t, inv s → step s a = some t → inv t)
    (lasts : ∀ s a t, inv s → step s a = some t → fault s → fault t)
    (arises : ∀ s a t, inv s → step s a = some t → ¬ fault s → (fault t ↔ ¬ allowed s a)) {start s : S}
    (initial : inv start) (sound : ¬ fault start) {actions : List A} (run : runActions step start actions = some s) :
    ¬ fault s ↔ Along step allowed start actions := by
  induction actions generalizing start with
  | nil =>
    simp only [runActions, Option.some.injEq] at run
    subst s
    exact ⟨fun _ => trivial, fun _ => sound⟩
  | cons a rest ih =>
    obtain ⟨middle, taken, run⟩ := Option.bind_eq_some_iff.mp run
    have hmiddle : inv middle := preserved start a middle initial taken
    by_cases hallowed : allowed start a
    · have hsound : ¬ fault middle := fun hfault => (arises start a middle initial taken sound).mp hfault hallowed
      rw [ih hmiddle hsound run]
      constructor
      · intro halong
        refine ⟨hallowed, fun t ht => ?_⟩
        cases taken.symm.trans ht
        exact halong
      · exact fun halong => halong.2 middle taken
    · have hfault : fault middle := (arises start a middle initial taken sound).mpr hallowed
      have hlast : fault s := ((Reachable.of_runActions rest run).invariant (fun s => inv s ∧ fault s)
        ⟨hmiddle, hfault⟩ fun s a t both _ step => ⟨preserved s a t both.1 step, lasts s a t both.1 step both.2⟩).2
      exact ⟨fun hnot => absurd hlast hnot, fun halong => absurd halong.1 hallowed⟩

/-- Where a fact holds after a step exactly if the step meets a condition, it holds in every state of a run exactly if
every step of the run does. -/
theorem along_iff_of_kept {step : S → A → Option S} {allowed : S → A → Prop} (good : S → Prop)
    (kept : ∀ s a t, good s → step s a = some t → (good t ↔ allowed s a)) {start : S} (initial : good start)
    {actions : List A} (hsome : (runActions step start actions).isSome = true) :
    (∀ before, before <+: actions → ∀ s, runActions step start before = some s → good s) ↔
      Along step allowed start actions := by
  induction actions generalizing start with
  | nil =>
    refine ⟨fun _ => trivial, fun _ before hbefore s run => ?_⟩
    rw [List.prefix_nil.mp hbefore, runActions, Option.some.injEq] at run
    exact run ▸ initial
  | cons a rest ih =>
    obtain ⟨s, run⟩ := Option.isSome_iff_exists.mp hsome
    obtain ⟨middle, taken, later⟩ := Option.bind_eq_some_iff.mp run
    have hlater : (runActions step middle rest).isSome = true := Option.isSome_iff_exists.mpr ⟨s, later⟩
    have hstep (before : List A) : runActions step start (a :: before) = runActions step middle before := by
      rw [runActions, taken, Option.bind_some]
    have hiff := kept start a middle initial taken
    constructor
    · intro hall
      have hmiddle : good middle := hall [a] (by simp) middle (by rw [hstep, runActions])
      refine ⟨hiff.mp hmiddle, fun t ht => ?_⟩
      cases taken.symm.trans ht
      refine (ih hmiddle hlater).mp fun before hbefore u hu => ?_
      exact hall (a :: before) (List.cons_prefix_cons.mpr ⟨rfl, hbefore⟩) u ((hstep before).trans hu)
    · intro halong before hbefore u hu
      have hmiddle : good middle := hiff.mpr halong.1
      cases before with
      | nil =>
        rw [runActions, Option.some.injEq] at hu
        exact hu ▸ initial
      | cons b before =>
        obtain ⟨rfl, hrest⟩ := List.cons_prefix_cons.mp hbefore
        rw [hstep] at hu
        exact (ih hmiddle hlater).mpr (halong.2 middle taken) before hrest u hu

end ZeroCode.Foundation
