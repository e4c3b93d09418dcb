import ZeroCode.Api.Listing
import ZeroCode.Core.Registry
import ZeroCode.Foundation.Grouping
import ZeroCode.Foundation.Percentile

/-!
# The health of the languages

A report says for every registered language how the submissions went that finished in the
last minutes: how many skipped the compiler, how many failed for a fault of the engine, and
how long they took. It is read off the table in one query. In a table of any run the rows
that have finished are the terminal ones, and each has a wall time, so that a language with
submissions always has all the figures.
-/

namespace ZeroCode.Api

open ZeroCode.Core ZeroCode.Foundation ZeroCode.Worker

/-- The window of a request in minutes. -/
def windowMins (params : Option ℤ) : ℤ := max 1 (min (params.getD 15) (24 * 60))

/-- One row of the query. -/
structure LanguageHealthRow where
  languageId : ℕ
  samples : ℕ
  warm : ℕ
  faults : ℕ
  p50Wall : Option ℚ
  p95Wall : Option ℚ
  deriving DecidableEq, Repr

/-- The row finished within the window. -/
def finishedWithin (now : ℚ) (window : ℤ) (r : Row) : Bool :=
  match r.finishedAt with
  | some finishedAt => now - window * 60 < finishedAt
  | none => false

/-- The statuses of a fault of the engine. -/
def faultKinds : List StatusKind := [.sandboxFailure, .internalError]

/-- What the query computes for the rows of a language. -/
def healthRow (languageId : ℕ) (rows : List Row) : LanguageHealthRow where
  languageId := languageId
  samples := rows.length
  warm := rows.countP fun r => r.compileTime.isNone
  faults := rows.countP fun r => r.status ∈ faultKinds
  p50Wall := percentileCont (1 / 2) (rows.filterMap Row.wallTime)
  p95Wall := percentileCont (95 / 100) (rows.filterMap Row.wallTime)

/-- The rows are some that the query may return. -/
def AggregatesRecent (rows : List Row) (now : ℚ) (window : ℤ) (groups : List LanguageHealthRow) : Prop :=
  IsGroupBy Row.languageId healthRow (rows.filter (finishedWithin now window)) groups

/-- The states of a language. -/
inductive HealthState
  | ok
  | cold
  | degraded
  | noData
  deriving DecidableEq, Repr

/-- The text of a state. -/
def HealthState.text : HealthState → String
  | .ok => "ok"
  | .cold => "cold"
  | .degraded => "degraded"
  | .noData => "no_data"

/-- Any fault is degraded; a slow language that is cold is not. -/
def classify (samples : ℕ) (warm faults : ℚ) : HealthState :=
  if samples = 0 then .noData
  else if 0 < faults then .degraded
  else if warm < 1 / 2 then .cold
  else .ok

/-- What the report says about a language. -/
structure LanguageHealth where
  languageId : ℕ
  name : String
  samples : ℕ
  warmRatio : Option ℚ
  p50Wall : Option ℚ
  p95Wall : Option ℚ
  faultRatio : Option ℚ
  state : HealthState
  deriving DecidableEq, Repr

/-- The report. -/
structure LanguageHealthReport where
  windowMins : ℤ
  healthy : Bool
  languages : List LanguageHealth
  deriving DecidableEq, Repr

/-- The entry of a language whose row was found, or that has none. -/
def LanguageHealth.of (spec : Language) : Option LanguageHealthRow → LanguageHealth
  | some r =>
    if 0 < r.samples then
      let warm : ℚ := r.warm / r.samples
      let faults : ℚ := r.faults / r.samples
      ⟨spec.id, spec.name, r.samples, some warm, r.p50Wall, r.p95Wall, some faults, classify r.samples warm faults⟩
    else ⟨spec.id, spec.name, 0, none, none, none, none, .noData⟩
  | none => ⟨spec.id, spec.name, 0, none, none, none, none, .noData⟩

/-- The report on the registered languages, from the rows of the query. -/
def languageHealth (registry : LanguageRegistry) (params : Option ℤ) (rows : List LanguageHealthRow) :
    LanguageHealthReport :=
  let languages := (registry.list.map fun spec =>
    LanguageHealth.of spec (rows.find? fun r => r.languageId = spec.id)).mergeSort
      fun a b => a.languageId ≤ b.languageId
  ⟨windowMins params, languages.all fun l => l.state ≠ .degraded, languages⟩

/-- The terminal rows of a language that finished within the window. -/
def recentRows (rows : List Row) (now : ℚ) (window : ℤ) (languageId : ℕ) : List Row :=
  rows.filter fun r => r.languageId = languageId ∧ r.status.isTerminal = true ∧ finishedWithin now window r = true

/-- An entry says how these submissions went. -/
structure LanguageHealth.Describes (entry : LanguageHealth) (rows : List Row) : Prop where
  samples : entry.samples = rows.length
  noData : entry.state = .noData ↔ rows = []
  degraded : entry.state = .degraded ↔ ∃ r ∈ rows, r.status ∈ faultKinds
  cold : entry.state = .cold ↔ (∀ r ∈ rows, r.status ∉ faultKinds) ∧
    2 * (rows.countP fun r => r.compileTime.isNone) < rows.length
  warmRatio : rows ≠ [] → ∃ warm, entry.warmRatio = some warm ∧ 0 ≤ warm ∧ warm ≤ 1
  faultRatio : rows ≠ [] → ∃ faults, entry.faultRatio = some faults ∧ 0 ≤ faults ∧ faults ≤ 1
  walls : rows ≠ [] → ∃ p50 p95, entry.p50Wall = some p50 ∧ entry.p95Wall = some p95 ∧ p50 ≤ p95 ∧
    (∃ r ∈ rows, ∃ wall, r.wallTime = some wall ∧ wall ≤ p50) ∧ ∃ r ∈ rows, ∃ wall, r.wallTime = some wall ∧ p95 ≤ wall

section Entry

/-- A part of some rows is a fraction of them. -/
theorem ratio_bounds (condition : Row → Bool) (rows : List Row) :
    0 ≤ ((rows.countP condition : ℕ) : ℚ) / (rows.length : ℕ) ∧
      ((rows.countP condition : ℕ) : ℚ) / (rows.length : ℕ) ≤ 1 := by
  have hle : ((rows.countP condition : ℕ) : ℚ) ≤ (rows.length : ℕ) := by exact_mod_cast List.countP_le_length
  exact ⟨by positivity, div_le_one_of_le₀ hle (Nat.cast_nonneg _)⟩

/-- A fraction of some rows is not zero exactly if one of them is counted. -/
theorem ratio_pos_iff {condition : Row → Bool} {rows : List Row} (hne : rows ≠ []) :
    0 < ((rows.countP condition : ℕ) : ℚ) / (rows.length : ℕ) ↔ ∃ r ∈ rows, condition r = true := by
  have hlength : (0 : ℚ) < (rows.length : ℕ) := by exact_mod_cast List.length_pos_iff.mpr hne
  rw [div_pos_iff_of_pos_right hlength, Nat.cast_pos, List.countP_pos_iff]

/-- A fraction is less than one half exactly if less than half of the rows are counted. -/
theorem ratio_lt_half_iff {condition : Row → Bool} {rows : List Row} (hne : rows ≠ []) :
    ((rows.countP condition : ℕ) : ℚ) / (rows.length : ℕ) < 1 / 2 ↔ 2 * rows.countP condition < rows.length := by
  have hlength : (0 : ℚ) < (rows.length : ℕ) := by exact_mod_cast List.length_pos_iff.mpr hne
  rw [div_lt_iff₀ hlength]
  constructor
  · intro h
    have hcast : (2 * rows.countP condition : ℚ) < (rows.length : ℕ) := by linarith
    exact_mod_cast hcast
  · intro h
    have hcast : ((2 * rows.countP condition : ℕ) : ℚ) < (rows.length : ℕ) := by exact_mod_cast h
    push_cast at hcast
    linarith

/-- The percentiles of rows that all have a wall time. -/
theorem exists_percentile {rows : List Row} (hne : rows ≠ []) (hwalls : ∀ r ∈ rows, r.wallTime.isSome = true) (p : ℚ) :
    ∃ v, percentileCont p (rows.filterMap Row.wallTime) = some v := by
  rw [← Option.isSome_iff_exists, isSome_percentileCont]
  obtain ⟨r, hr⟩ := List.exists_mem_of_ne_nil rows hne
  obtain ⟨wall, hwall⟩ := Option.isSome_iff_exists.mp (hwalls r hr)
  exact List.ne_nil_of_mem (List.mem_filterMap.mpr ⟨r, hr, hwall⟩)

/-- No data is the state of no samples. -/
theorem classify_eq_noData {samples : ℕ} {warm faults : ℚ} : classify samples warm faults = .noData ↔ samples = 0 := by
  unfold classify
  split_ifs <;> simp_all

/-- A fault degrades a language, however warm it is. -/
theorem classify_eq_degraded {samples : ℕ} {warm faults : ℚ} :
    classify samples warm faults = .degraded ↔ samples ≠ 0 ∧ 0 < faults := by
  unfold classify
  split_ifs <;> simp_all

/-- A language is cold without a fault, if less than half of its samples were warm. -/
theorem classify_eq_cold {samples : ℕ} {warm faults : ℚ} :
    classify samples warm faults = .cold ↔ samples ≠ 0 ∧ ¬ 0 < faults ∧ warm < 1 / 2 := by
  unfold classify
  split_ifs <;> simp_all

/-- The entry of a language with the rows of its window. -/
theorem LanguageHealth.describes_of {rows : List Row} (hwalls : ∀ r ∈ rows, r.wallTime.isSome = true) (spec : Language) :
    (LanguageHealth.of spec (if rows = [] then none else some (healthRow spec.id rows))).Describes rows := by
  by_cases hne : rows = []
  · subst hne
    rw [if_pos rfl]
    constructor <;> simp [LanguageHealth.of]
  · have hsamples : 0 < rows.length := List.length_pos_iff.mpr hne
    obtain ⟨p50, hp50⟩ := exists_percentile hne hwalls (1 / 2)
    obtain ⟨p95, hp95⟩ := exists_percentile hne hwalls (95 / 100)
    have hentry : LanguageHealth.of spec (some (healthRow spec.id rows)) =
        ⟨spec.id, spec.name, rows.length,
          some ((rows.countP fun r => r.compileTime.isNone : ℕ) / (rows.length : ℕ) : ℚ), some p50, some p95,
          some ((rows.countP fun r => r.status ∈ faultKinds : ℕ) / (rows.length : ℕ) : ℚ),
          classify rows.length ((rows.countP fun r => r.compileTime.isNone : ℕ) / (rows.length : ℕ))
            ((rows.countP fun r => r.status ∈ faultKinds : ℕ) / (rows.length : ℕ))⟩ := by
      rw [← hp50, ← hp95]
      exact if_pos hsamples
    have hfaults : (0 : ℚ) < (rows.countP fun r => r.status ∈ faultKinds : ℕ) / (rows.length : ℕ) ↔
        ∃ r ∈ rows, r.status ∈ faultKinds := by
      rw [ratio_pos_iff hne]
      simp only [decide_eq_true_eq]
    rw [if_neg hne, hentry]
    refine ⟨rfl, ?_, ?_, ?_, fun _ => ⟨_, rfl, ratio_bounds _ rows⟩, fun _ => ⟨_, rfl, ratio_bounds _ rows⟩,
      fun _ => ⟨p50, p95, rfl, rfl, percentileCont_mono (by norm_num) (by norm_num) (by norm_num) hp50 hp95, ?_, ?_⟩⟩
    · rw [classify_eq_noData, List.length_eq_zero_iff]
    · rw [classify_eq_degraded, hfaults, and_iff_right hsamples.ne']
    · rw [classify_eq_cold, hfaults, ratio_lt_half_iff hne, and_iff_right hsamples.ne']
      push Not
      rfl
    · obtain ⟨wall, hwall, -, -, hle, -⟩ := percentileCont_between (by norm_num) (by norm_num) hp50
      obtain ⟨r, hr, hrow⟩ := List.mem_filterMap.mp hwall
      exact ⟨r, hr, wall, hrow, hle⟩
    · obtain ⟨-, -, wall, hwall, -, hle⟩ := percentileCont_between (by norm_num) (by norm_num) hp95
      obtain ⟨r, hr, hrow⟩ := List.mem_filterMap.mp hwall
      exact ⟨r, hr, wall, hrow, hle⟩

end Entry

section Run

/-- Every row that has finished has a wall time. -/
def WallsKnown (s : Fleet) : Prop := ∀ r ∈ s.rows, r.finishedAt.isSome = true → r.wallTime.isSome = true

/-- Every step keeps this: what finishes a row writes its wall time. -/
theorem WallsKnown.of_step {s t : Fleet} {a : FleetAction} (h : WallsKnown s) (hstep : s.step a = some t) :
    WallsKnown t := by
  intro r hr
  have rewritten {condition : Row → Bool} {f : Row → Row} (hrow : r ∈ updateWhere condition f s.rows)
      (hf : ∀ old ∈ s.rows, (f old).finishedAt.isSome = true → (f old).wallTime.isSome = true) :
      r.finishedAt.isSome = true → r.wallTime.isSome = true :=
    forall_mem_updateWhere h (fun old hold _ => hf old hold) r hrow
  cases Fleet.effect_of_step hstep with
  | insert new hfresh => exact forall_mem_concat h (fun hfinished => by cases hfinished) r hr
  | claim workerId locked next hnext hqueued => exact rewritten hr h
  | claimLost workerId locked next hnext hqueued => exact rewritten hr h
  | claimFailed => exact h r hr
  | publishProcessing i ok task htask hphase => exact h r hr
  | execute i result task htask hphase => exact h r hr
  | executeFailed i task htask hphase => exact h r hr
  | writeResult i reply hcommitted task htask result hphase => exact rewritten hr fun _ _ _ => rfl
  | writeResultFailed i task htask result hphase => exact h r hr
  | writeSandboxFailure i elapsed reply hcommitted task htask hphase => exact rewritten hr fun _ _ _ => rfl
  | writeSandboxFailureFailed i elapsed task htask hphase => exact h r hr
  | publishFinished i ok task htask status hphase => exact h r hr
  | crash i task htask => exact h r hr
  | sweep => exact rewritten hr h
  | tick elapsed hnonneg => exact h r hr

/-- In every table of a run the rows that have finished have a wall time. -/
theorem wallsKnown_of_reaches {s : Fleet} (reached : Reaches storeStep (fun _ a => JudgedStore a) Fleet.init s) :
    WallsKnown s := by
  refine reached.invariant WallsKnown (fun r hr => by cases hr) fun s a t h _ hstep => ?_
  cases a with
  | fleet a => exact h.of_step hstep
  | scrubPayloads config =>
    cases hstep
    exact forall_mem_updateWhere h fun r hr _ => h r hr
  | expireOldRows config =>
    cases hstep
    exact fun r hr => h r (List.mem_of_mem_filter hr)

/-- A row that finished within a window has finished. -/
theorem isSome_of_finishedWithin {now : ℚ} {window : ℤ} {r : Row} (h : finishedWithin now window r = true) :
    r.finishedAt.isSome = true := by
  unfold finishedWithin at h
  split at h
  · rename_i hat
    exact Option.isSome_of_eq_some hat
  · cases h

/-- Entries are in the order of their identifiers. -/
theorem pairwise_languageId (entries : List LanguageHealth) :
    (entries.mergeSort fun a b => a.languageId ≤ b.languageId).Pairwise fun a b => a.languageId ≤ b.languageId := by
  have hsorted := @List.pairwise_mergeSort LanguageHealth (fun a b => decide (a.languageId ≤ b.languageId))
    (fun a b c hab hbc => by simpa using Nat.le_trans (by simpa using hab) (by simpa using hbc))
    (fun a b => by simpa using Nat.le_total a.languageId b.languageId) entries
  exact hsorted.imp fun h => of_decide_eq_true h

/-- The rows of a language in the window are the terminal ones among them. -/
theorem recentRows_eq {rows : List Row} (h : ∀ r ∈ rows, RowWellFormed r) (now : ℚ) (window : ℤ) (languageId : ℕ) :
    recentRows rows now window languageId =
      rowsOf Row.languageId (rows.filter (finishedWithin now window)) languageId := by
  rw [recentRows, rowsOf, List.filter_filter]
  refine List.filter_congr fun r hr => ?_
  have hterminal : finishedWithin now window r = true → r.status.isTerminal = true := by
    intro hfinished
    have hsome := isSome_of_finishedWithin hfinished
    cases hstatus : r.status with
    | queued => simp [((h r hr).queued hstatus).2.1] at hsome
    | processing => simp [((h r hr).processing hstatus).2] at hsome
    | _ => rfl
  rw [Bool.eq_iff_iff, decide_eq_true_eq, Bool.and_eq_true, decide_eq_true_eq]
  exact and_congr_right fun _ => and_iff_right_of_imp hterminal

/-- In every table of a run, whatever order the query returns its rows in: the report lists the registered languages by
their identifiers, each entry describes the terminal rows of its language in the window, and the report is healthy
exactly if none of these rows of any registered language is a fault of the engine. -/
theorem languageHealth_sound {s : Fleet} (reached : Reaches storeStep (fun _ a => JudgedStore a) Fleet.init s)
    (specs : List Language) (params : Option ℤ) (rows : List LanguageHealthRow)
    (hrows : AggregatesRecent s.rows s.now (windowMins params) rows) :
    let report := languageHealth (.fromSpecs specs) params rows
    let recent := recentRows s.rows s.now (windowMins params)
    (report.languages.map (·.languageId)).Pairwise (· ≤ ·) ∧
      (report.languages.map (·.languageId)).Perm (specs.map (·.id)) ∧
        (∀ entry ∈ report.languages, entry.Describes (recent entry.languageId)) ∧
          (report.healthy = true ↔ ∀ spec ∈ specs, ∀ r ∈ recent spec.id, r.status ∉ faultKinds) := by
  intro report recent
  have hcoherent := LanguageRegistry.coherent_fromSpecs specs
  have hperm : report.languages.Perm ((LanguageRegistry.fromSpecs specs).list.map fun spec =>
      LanguageHealth.of spec (rows.find? fun r => r.languageId = spec.id)) := List.mergeSort_perm _ _
  have hid (spec : Language) (r : Option LanguageHealthRow) : (LanguageHealth.of spec r).languageId = spec.id := by
    cases r with
    | none => rfl
    | some r =>
      rw [LanguageHealth.of]
      split <;> rfl
  have hdescribes (spec : Language) :
      (LanguageHealth.of spec (rows.find? fun r => r.languageId = spec.id)).Describes (recent spec.id) := by
    have hwalls : ∀ r ∈ recent spec.id, r.wallTime.isSome = true := fun r hr =>
      wallsKnown_of_reaches reached r (List.mem_of_mem_filter hr) (by
        have hfinished := (of_decide_eq_true (List.mem_filter.mp hr).2).2.2
        exact isSome_of_finishedWithin hfinished)
    rw [hrows.find?_eq LanguageHealthRow.languageId (fun _ _ => rfl), ← recentRows_eq (fleetInv_of_reaches reached).rows]
    exact LanguageHealth.describes_of hwalls spec
  have hids : (LanguageRegistry.fromSpecs specs).list.map (·.id) = specs.map (·.id) := by
    rw [hcoherent.map_id_list, LanguageRegistry.order_fromSpecs]
  refine ⟨?_, ?_, ?_, ?_⟩
  · rw [List.pairwise_map]
    exact pairwise_languageId _
  · have hmapped := hperm.map (·.languageId)
    rw [List.map_map] at hmapped
    rw [← hids]
    exact hmapped.trans (List.Perm.of_eq (List.map_congr_left fun spec _ => hid spec _))
  · intro entry hentry
    obtain ⟨spec, -, rfl⟩ := List.mem_map.mp (hperm.subset hentry)
    rw [hid]
    exact hdescribes spec
  · have hquiet (spec : Language) :
        (LanguageHealth.of spec (rows.find? fun r => r.languageId = spec.id)).state ≠ .degraded ↔
          ∀ r ∈ recent spec.id, r.status ∉ faultKinds := by
      rw [Ne, (hdescribes spec).degraded]
      push Not
      rfl
    calc report.healthy = true
      _ ↔ ∀ entry ∈ report.languages, entry.state ≠ .degraded := by
        simp only [report, languageHealth, List.all_eq_true, decide_eq_true_eq]
      _ ↔ ∀ id ∈ specs.map (·.id), ∀ r ∈ recent id, r.status ∉ faultKinds := by
        rw [← hids]
        simp only [hperm.mem_iff, List.forall_mem_map, hquiet]
      _ ↔ ∀ spec ∈ specs, ∀ r ∈ recent spec.id, r.status ∉ faultKinds := List.forall_mem_map

/-- A little more than an hour after it was executed, the report on two hours counts it and is healthy. -/
theorem languageHealth_sound_agedRun :
    ((recentRows agedFleet.rows agedFleet.now 120 71).map Row.status = [.accepted]) ∧
      (languageHealth (.fromSpecs [registeredPython]) (some 120)
        (((agedFleet.rows.filter (finishedWithin agedFleet.now 120)).map Row.languageId).dedup.map fun id =>
          healthRow id (rowsOf Row.languageId (agedFleet.rows.filter (finishedWithin agedFleet.now 120)) id))).healthy =
        true := by
  have reached : Reaches storeStep (fun _ a => JudgedStore a) Fleet.init agedFleet := by
    refine .of_runActions_forall agedRun (fun a ha => ?_) (runActions_eq_lastState (by decide +kernel))
    simp only [agedRun, List.mem_cons, List.not_mem_nil, or_false] at ha
    rcases ha with rfl | rfl | rfl | rfl | rfl | rfl
    · exact trivial
    · exact trivial
    · exact trivial
    · exact .naive (.ran true (some 0)) rfl
    · exact trivial
    · exact trivial
  have hrecent : (recentRows agedFleet.rows agedFleet.now 120 71).map Row.status = [.accepted] := by decide +kernel
  refine ⟨hrecent, (languageHealth_sound reached [registeredPython] (some 120) _ isGroupBy_dedup).2.2.2.mpr ?_⟩
  intro spec hspec r hr
  obtain rfl := List.mem_singleton.mp hspec
  have hstatus : r.status ∈ (recentRows agedFleet.rows agedFleet.now 120 71).map Row.status :=
    List.mem_map_of_mem hr
  rw [hrecent] at hstatus
  rw [List.mem_singleton.mp hstatus]
  decide

end Run

end ZeroCode.Api
