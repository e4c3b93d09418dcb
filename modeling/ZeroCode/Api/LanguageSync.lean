import ZeroCode.Core.Registry
import ZeroCode.Core.SinglePrecision
import ZeroCode.Foundation.Upsert
import ZeroCode.Worker.Retention

/-!
# The table of languages

A submission refers to a row of the table of languages, which every process of the API
writes from its own file when it starts: one statement for each language, before it serves
any request. Processes with different files start and stop at any time, in the middle of
that as well, and none deletes a row. So a request for a registered language never fails for
want of its row, and every row is that of one of the files as a whole.
-/

namespace ZeroCode.Api

open ZeroCode.Core ZeroCode.Foundation ZeroCode.Worker

/-- A row of the table. -/
structure LanguageRow where
  id : ℤ
  name : String
  version : String
  sourceFile : String
  compileCmd : List String
  runCmd : List String
  env : List (String × String)
  isArchived : Bool
  createdAt : ℚ
  updatedAt : ℚ
  deriving DecidableEq, Repr

/-- The row of a language that is written for the first time. -/
def languageRow (spec : Language) (now : ℚ) : LanguageRow where
  id := asI32 spec.id
  name := spec.name
  version := spec.version
  sourceFile := spec.sourceFile
  compileCmd := spec.compileCmd.getD []
  runCmd := spec.runCmd
  env := spec.env
  isArchived := spec.isArchived
  createdAt := now
  updatedAt := now

/-- The row of a language that is written again: its key and the time of the insert are kept. -/
def LanguageRow.update (spec : Language) (now : ℚ) (r : LanguageRow) : LanguageRow :=
  { languageRow spec now with id := r.id, createdAt := r.createdAt }

/-- Write a language. -/
def syncLanguage (table : List LanguageRow) (now : ℚ) (spec : Language) : List LanguageRow :=
  upsert LanguageRow.id (languageRow spec now) (LanguageRow.update spec now) table

/-- Insert a submission whose language has a row. -/
def insertReferencing (table : List LanguageRow) (rows : List Row) (now : ℚ) (new : NewSubmission) :
    Option (List Row) :=
  if asI32 new.languageId ∈ table.map LanguageRow.id then insertSubmission rows now new else none

/-- Where a process of the API is: it writes its languages, serves, or has ended. -/
inductive ProcessPhase
  | syncing (pending : List Language)
  | serving
  | stopped
  deriving DecidableEq, Repr

/-- A process of the API. -/
structure ApiProcess where
  registry : LanguageRegistry
  phase : ProcessPhase

/-- The two tables with the workers, and every process of the API that was ever started. -/
structure Deployment where
  languages : List LanguageRow
  fleet : Fleet
  processes : List ApiProcess

/-- Nothing was started. -/
def Deployment.init : Deployment := ⟨[], .init, []⟩

/-- A step of a process, or one of the workers, the sweeper and the retention. -/
inductive DeploymentAction
  | start (specs : List Language)
  | sync (i : ℕ) (reply : Reply)
  | serve (i : ℕ)
  | insert (i : ℕ) (new : NewSubmission)
  | stop (i : ℕ)
  | store (a : StoreAction)

/-- The step inserts a submission, which only a process of the API does. -/
def StoreAction.inserts : StoreAction → Bool
  | .fleet (.insert _) => true
  | _ => false

/-- Replace the phase of a process. -/
def Deployment.setPhase (d : Deployment) (i : ℕ) (p : ApiProcess) (phase : ProcessPhase) : Deployment :=
  { d with processes := d.processes.set i { p with phase := phase } }

/-- One step of the system. -/
def Deployment.step (d : Deployment) : DeploymentAction → Option Deployment
  | .start specs =>
    let registry := LanguageRegistry.fromSpecs specs
    some { d with processes := d.processes ++ [⟨registry, .syncing registry.list⟩] }
  | .sync i reply =>
    match d.processes[i]? with
    | some p =>
      match p.phase with
      | .syncing (spec :: rest) =>
        let languages := if reply.committed then syncLanguage d.languages d.fleet.now spec else d.languages
        -- a process whose statement failed does not start to serve
        some { d.setPhase i p (if reply = .acknowledged then .syncing rest else .stopped) with languages := languages }
      | _ => none
    | none => none
  | .serve i =>
    match d.processes[i]? with
    | some p => if p.phase = .syncing [] then some (d.setPhase i p .serving) else none
    | none => none
  | .insert i new =>
    match d.processes[i]? with
    | some p =>
      -- the handler requires the language before it inserts
      if p.phase = .serving ∧ (p.registry.get new.languageId).isSome = true then
        (insertReferencing d.languages d.fleet.rows d.fleet.now new).map fun rows =>
          { d with fleet := { d.fleet with rows := rows } }
      else none
    | none => none
  | .stop i =>
    match d.processes[i]? with
    | some p => some (d.setPhase i p .stopped)
    | none => none
  | .store a => if StoreAction.inserts a then none else (storeStep d.fleet a).map fun fleet => { d with fleet := fleet }

/-- Identifiers of languages have 32 bits. -/
def FitsIds : DeploymentAction → Prop
  | .start specs => ∀ spec ∈ specs, spec.id < 2 ^ 32
  | _ => True

/-- The row is that of the language, as far as the table has its columns. -/
structure LanguageRow.Mirrors (row : LanguageRow) (spec : Language) : Prop where
  id : row.id = asI32 spec.id
  name : row.name = spec.name
  version : row.version = spec.version
  sourceFile : row.sourceFile = spec.sourceFile
  compileCmd : row.compileCmd = spec.compileCmd.getD []
  runCmd : row.runCmd = spec.runCmd
  env : row.env = spec.env
  isArchived : row.isArchived = spec.isArchived

/-- The process has written the language. -/
def ApiProcess.Wrote (p : ApiProcess) (spec : Language) : Prop :=
  match p.phase with
  | .syncing pending => spec ∉ pending
  | .serving => True
  | .stopped => False

/-- The registry was loaded from a file, and the process has nothing else to write. -/
structure ApiProcess.WellFormed (p : ApiProcess) : Prop where
  coherent : p.registry.Coherent
  fits : ∀ spec ∈ p.registry.list, spec.id < 2 ^ 32
  pending : ∀ pending, p.phase = .syncing pending → ∀ spec ∈ pending, spec ∈ p.registry.list

/-- Every row is that of a language of some process, every process finds what it has written, and every submission its
language. -/
structure LanguagesSynced (d : Deployment) : Prop where
  ids : (d.languages.map LanguageRow.id).Nodup
  processes : ∀ p ∈ d.processes, p.WellFormed
  mirrors : ∀ row ∈ d.languages, ∃ registry ∈ d.processes.map ApiProcess.registry, ∃ spec ∈ registry.list,
    row.Mirrors spec
  written : ∀ p ∈ d.processes, ∀ spec ∈ p.registry.list, p.Wrote spec → asI32 spec.id ∈ d.languages.map LanguageRow.id
  references : ∀ r ∈ d.fleet.rows, asI32 r.languageId ∈ d.languages.map LanguageRow.id

/-- The key of a new row. -/
theorem id_languageRow (spec : Language) (now : ℚ) : (languageRow spec now).id = asI32 spec.id := by
  rw [languageRow]

/-- Writing a row again keeps its key. -/
theorem id_update (spec : Language) (now : ℚ) (r : LanguageRow) : (r.update spec now).id = r.id := by
  rw [LanguageRow.update]

/-- A new row mirrors its language. -/
theorem mirrors_languageRow (spec : Language) (now : ℚ) : (languageRow spec now).Mirrors spec := by
  constructor <;> rw [languageRow]

/-- A row that is written again mirrors the language, if it has its key. -/
theorem mirrors_update {spec : Language} {r : LanguageRow} (hid : r.id = asI32 spec.id) (now : ℚ) :
    (r.update spec now).Mirrors spec := by
  constructor
  · rw [id_update, hid]
  all_goals rw [LanguageRow.update, languageRow]

/-- Every row of the table after a write mirrors that language, or was there before. -/
theorem mem_syncLanguage {table : List LanguageRow} {now : ℚ} {spec : Language} {row : LanguageRow}
    (hrow : row ∈ syncLanguage table now spec) : row.Mirrors spec ∨ row ∈ table := by
  rcases mem_upsert hrow with ⟨hold, -⟩ | ⟨old, -, hkey, rfl⟩ | rfl
  · exact Or.inr hold
  · rw [id_languageRow] at hkey
    exact Or.inl (mirrors_update hkey now)
  · exact Or.inl (mirrors_languageRow spec now)

/-- Replacing a phase keeps the registries. -/
theorem map_registry_setPhase {d : Deployment} {i : ℕ} {p : ApiProcess} (hp : d.processes[i]? = some p)
    (phase : ProcessPhase) :
    (d.setPhase i p phase).processes.map ApiProcess.registry = d.processes.map ApiProcess.registry := by
  obtain ⟨hlt, rfl⟩ := List.getElem?_eq_some_iff.mp hp
  have hlength : i < (d.processes.map ApiProcess.registry).length := by rwa [List.length_map]
  have hsame := List.set_getElem_self hlength
  rw [List.getElem_map] at hsame
  rw [Deployment.setPhase, List.map_set]
  exact hsame

/-- A process that moves on keeps the invariant, if the table keeps its keys and has what the process has written. -/
theorem LanguagesSynced.move {d : Deployment} (h : LanguagesSynced d) {i : ℕ} {p : ApiProcess}
    (hp : d.processes[i]? = some p) {phase : ProcessPhase} {languages : List LanguageRow}
    (hids : (languages.map LanguageRow.id).Nodup)
    (hkept : ∀ id ∈ d.languages.map LanguageRow.id, id ∈ languages.map LanguageRow.id)
    (hmirrors : ∀ row ∈ languages, (∃ spec ∈ p.registry.list, row.Mirrors spec) ∨ row ∈ d.languages)
    (hpending : ∀ pending, phase = .syncing pending → ∀ spec ∈ pending, spec ∈ p.registry.list)
    (hwritten : ∀ spec ∈ p.registry.list, ({ p with phase := phase } : ApiProcess).Wrote spec →
      asI32 spec.id ∈ languages.map LanguageRow.id) :
    LanguagesSynced { d.setPhase i p phase with languages := languages } where
  ids := hids
  processes := by
    have hwell := h.processes p (List.mem_of_getElem? hp)
    refine forall_mem_set h.processes ?_ i
    exact { coherent := hwell.coherent, fits := hwell.fits, pending := hpending }
  mirrors row hrow := by
    rw [map_registry_setPhase hp]
    rcases hmirrors row hrow with hspec | hold
    · exact ⟨p.registry, List.mem_map_of_mem (List.mem_of_getElem? hp), hspec⟩
    · exact h.mirrors row hold
  written := by
    refine forall_mem_set (fun q hq spec hspec hwrote => ?_) hwritten i
    exact hkept _ (h.written q hq spec hspec hwrote)
  references r hr := hkept _ (h.references r hr)

/-- A statement of a process keeps the invariant. -/
theorem LanguagesSynced.sync {d : Deployment} (h : LanguagesSynced d) {i : ℕ} {p : ApiProcess}
    (hp : d.processes[i]? = some p) {spec : Language} {rest : List Language} (hphase : p.phase = .syncing (spec :: rest))
    (reply : Reply) :
    LanguagesSynced { d.setPhase i p (if reply = .acknowledged then .syncing rest else .stopped) with
      languages := if reply.committed then syncLanguage d.languages d.fleet.now spec else d.languages } := by
  have hlisted := (h.processes p (List.mem_of_getElem? hp)).pending _ hphase
  have hkeys (id : ℤ) : id ∈ (syncLanguage d.languages d.fleet.now spec).map LanguageRow.id ↔
      id ∈ d.languages.map LanguageRow.id ∨ id = asI32 spec.id := by
    rw [syncLanguage, mem_keys_upsert (id_update spec d.fleet.now), id_languageRow]
  -- what was written before this statement is still there, and so is its language if it committed
  refine h.move hp ?_ ?_ ?_ ?_ ?_
  · split
    · exact nodup_keys_upsert (id_update spec d.fleet.now) h.ids
    · exact h.ids
  · intro id hid
    split
    · exact (hkeys id).mpr (Or.inl hid)
    · exact hid
  · intro row hrow
    split at hrow
    · exact (mem_syncLanguage hrow).imp_left fun hmirrors => ⟨spec, hlisted spec List.mem_cons_self, hmirrors⟩
    · exact Or.inr hrow
  · intro pending hpending other hother
    split at hpending
    · cases hpending
      exact hlisted other (List.mem_cons_of_mem spec hother)
    · cases hpending
  · intro other hother hwrote
    cases reply with
    | acknowledged =>
      refine (hkeys (asI32 other.id)).mpr ?_
      by_cases hsame : other = spec
      · exact Or.inr (congrArg (fun l : Language => asI32 l.id) hsame)
      · refine Or.inl (h.written p (List.mem_of_getElem? hp) other hother ?_)
        rw [ApiProcess.Wrote, hphase]
        exact fun hmem => (List.mem_cons.mp hmem).elim hsame hwrote
    | lost => exact hwrote.elim
    | failed => exact hwrote.elim

/-- The rows that the workers and the retention leave are of the languages that were there. -/
theorem languageId_of_storeStep {s t : Fleet} {a : StoreAction} (hstep : storeStep s a = some t)
    (hinsert : ∀ new, a ≠ .fleet (.insert new)) : ∀ r ∈ t.rows, ∃ old ∈ s.rows, old.languageId = r.languageId := by
  intro r hr
  have rewritten {condition : Row → Bool} {f : Row → Row} (hrow : r ∈ updateWhere condition f s.rows)
      (hf : ∀ old, (f old).languageId = old.languageId) : ∃ old ∈ s.rows, old.languageId = r.languageId := by
    rcases mem_updateWhere hrow with ⟨hold, -⟩ | ⟨old, hold, -, rfl⟩
    · exact ⟨r, hold, rfl⟩
    · exact ⟨old, hold, (hf old).symm⟩
  cases a with
  | fleet a =>
    cases Fleet.effect_of_step hstep with
    | insert new hfresh => exact absurd rfl (hinsert new)
    | claim workerId locked next hnext hqueued => exact rewritten hr fun _ => rfl
    | claimLost workerId locked next hnext hqueued => exact rewritten hr fun _ => rfl
    | writeResult i reply hcommitted task htask result hphase => exact rewritten hr fun _ => rfl
    | writeSandboxFailure i elapsed reply hcommitted task htask hphase => exact rewritten hr fun _ => rfl
    | sweep => exact rewritten hr fun _ => rfl
    | claimFailed | publishProcessing | execute | executeFailed | writeResultFailed | writeSandboxFailureFailed
    | publishFinished | crash | tick => exact ⟨r, hr, rfl⟩
  | scrubPayloads config =>
    cases hstep
    exact rewritten hr fun _ => rfl
  | expireOldRows config =>
    cases hstep
    exact ⟨r, List.mem_of_mem_filter hr, rfl⟩

/-- Nothing is in the empty tables. -/
theorem LanguagesSynced.init : LanguagesSynced .init where
  ids := List.nodup_nil
  processes p hp := by cases hp
  mirrors row hrow := by cases hrow
  written p hp := by cases hp
  references r hr := by cases hr

/-- A process that starts keeps the invariant. -/
theorem LanguagesSynced.start {d : Deployment} (h : LanguagesSynced d) {specs : List Language}
    (hfits : ∀ spec ∈ specs, spec.id < 2 ^ 32) :
    LanguagesSynced { d with processes := d.processes ++
      [⟨.fromSpecs specs, .syncing (LanguageRegistry.fromSpecs specs).list⟩] } where
  ids := h.ids
  processes := by
    have hcoherent := LanguageRegistry.coherent_fromSpecs specs
    refine forall_mem_concat h.processes ⟨hcoherent, fun spec hspec => ?_, fun pending heq => ?_⟩
    · have hid : spec.id ∈ (LanguageRegistry.fromSpecs specs).list.map (·.id) := List.mem_map_of_mem hspec
      rw [hcoherent.map_id_list, LanguageRegistry.order_fromSpecs] at hid
      obtain ⟨other, hother, hsame⟩ := List.mem_map.mp hid
      exact hsame ▸ hfits other hother
    · cases heq
      exact fun _ hspec => hspec
  mirrors row hrow := by
    obtain ⟨registry, hregistry, hspec⟩ := h.mirrors row hrow
    refine ⟨registry, ?_, hspec⟩
    rw [List.map_append]
    exact List.mem_append_left _ hregistry
  written := forall_mem_concat h.written fun _ hspec hwrote => absurd hspec hwrote
  references := h.references

/-- An insert keeps the invariant: its language has a row. -/
theorem LanguagesSynced.insert {d : Deployment} (h : LanguagesSynced d) {new : NewSubmission} {rows : List Row}
    (hrows : insertReferencing d.languages d.fleet.rows d.fleet.now new = some rows) :
    LanguagesSynced { d with fleet := { d.fleet with rows := rows } } := by
  unfold insertReferencing at hrows
  split at hrows
  · rename_i hlanguage
    unfold insertSubmission at hrows
    split at hrows
    · cases hrows
    · obtain rfl := Option.some.inj hrows
      exact { h with references := forall_mem_concat h.references hlanguage }
  · cases hrows

/-- Every step keeps the invariant. -/
theorem LanguagesSynced.of_step {d e : Deployment} {a : DeploymentAction} (h : LanguagesSynced d) (hfits : FitsIds a)
    (hstep : d.step a = some e) : LanguagesSynced e := by
  cases a with
  | start specs =>
    cases hstep
    exact h.start hfits
  | sync i reply =>
    simp only [Deployment.step] at hstep
    split at hstep
    · rename_i p hp
      split at hstep
      · rename_i spec rest hphase
        obtain rfl := Option.some.inj hstep
        exact h.sync hp hphase reply
      · cases hstep
    · cases hstep
  | serve i =>
    simp only [Deployment.step] at hstep
    split at hstep
    · rename_i p hp
      split at hstep
      · rename_i hphase
        obtain rfl := Option.some.inj hstep
        refine h.move hp h.ids (fun _ hid => hid) (fun _ hrow => Or.inr hrow) (fun _ heq => by cases heq) ?_
        intro spec hspec _
        refine h.written p (List.mem_of_getElem? hp) spec hspec ?_
        rw [ApiProcess.Wrote, hphase]
        exact List.not_mem_nil
      · cases hstep
    · cases hstep
  | insert i new =>
    simp only [Deployment.step] at hstep
    split at hstep
    · split at hstep
      · obtain ⟨rows, hrows, rfl⟩ := Option.map_eq_some_iff.mp hstep
        exact h.insert hrows
      · cases hstep
    · cases hstep
  | stop i =>
    simp only [Deployment.step] at hstep
    split at hstep
    · rename_i p hp
      obtain rfl := Option.some.inj hstep
      exact h.move hp h.ids (fun _ hid => hid) (fun _ hrow => Or.inr hrow) (fun _ heq => by cases heq)
        fun _ _ hwrote => hwrote.elim
    · cases hstep
  | store a =>
    simp only [Deployment.step] at hstep
    split at hstep
    · cases hstep
    · rename_i hinsert
      obtain ⟨fleet, hfleet, rfl⟩ := Option.map_eq_some_iff.mp hstep
      refine { h with references := fun r hr => ?_ }
      obtain ⟨old, hold, hid⟩ := languageId_of_storeStep hfleet (fun new heq => hinsert (heq ▸ rfl)) r hr
      exact hid ▸ h.references old hold

/-- In every run of processes that start, write their languages, serve and stop in any order: the keys of the table are
unique, every row mirrors a language of a file, a process that serves finds a row for every language of its own, which
mirrors that language unless a file has another one of its identifier, every submission refers to a row, and none for a
registered language is refused for want of one. -/
theorem languages_synced {d : Deployment} (reached : Reaches Deployment.step (fun _ a => FitsIds a) .init d) :
    (d.languages.map LanguageRow.id).Nodup ∧
      (∀ row ∈ d.languages, ∃ p ∈ d.processes, ∃ spec ∈ p.registry.list, row.Mirrors spec) ∧
        (∀ p ∈ d.processes, p.phase = .serving → ∀ spec ∈ p.registry.list, ∃ row ∈ d.languages,
          row.id = asI32 spec.id ∧
            ((∀ q ∈ d.processes, ∀ other ∈ q.registry.list, other.id = spec.id → other = spec) → row.Mirrors spec)) ∧
          (∀ r ∈ d.fleet.rows, ∃ row ∈ d.languages, row.id = asI32 r.languageId) ∧
            ∀ p ∈ d.processes, p.phase = .serving → ∀ new : NewSubmission,
              (p.registry.get new.languageId).isSome = true →
                insertReferencing d.languages d.fleet.rows d.fleet.now new =
                  insertSubmission d.fleet.rows d.fleet.now new := by
  have h : LanguagesSynced d :=
    reached.invariant LanguagesSynced .init fun _ _ _ hinv hfits hstep => hinv.of_step hfits hstep
  have hserved {p : ApiProcess} (hp : p ∈ d.processes) (hserving : p.phase = .serving) {spec : Language}
      (hspec : spec ∈ p.registry.list) : asI32 spec.id ∈ d.languages.map LanguageRow.id := by
    refine h.written p hp spec hspec ?_
    rw [ApiProcess.Wrote, hserving]
    trivial
  have hmirrors : ∀ row ∈ d.languages, ∃ p ∈ d.processes, ∃ spec ∈ p.registry.list, row.Mirrors spec := by
    intro row hrow
    obtain ⟨_, hregistry, hspec⟩ := h.mirrors row hrow
    obtain ⟨p, hp, rfl⟩ := List.mem_map.mp hregistry
    exact ⟨p, hp, hspec⟩
  refine ⟨h.ids, hmirrors, fun p hp hserving spec hspec => ?_, fun r hr => ?_, fun p hp hserving new hknown => ?_⟩
  · obtain ⟨row, hrow, hid⟩ := List.mem_map.mp (hserved hp hserving hspec)
    refine ⟨row, hrow, hid, fun hagree => ?_⟩
    obtain ⟨q, hq, other, hother, hmirror⟩ := hmirrors row hrow
    have hsame : other.id = spec.id := by
      rw [← asU32_asI32 ((h.processes q hq).fits other hother), ← asU32_asI32 ((h.processes p hp).fits spec hspec),
        ← hid, ← hmirror.id]
    exact hagree q hq other hother hsame ▸ hmirror
  · exact List.mem_map.mp (h.references r hr)
  · obtain ⟨spec, hget⟩ := Option.isSome_iff_exists.mp hknown
    have hcoherent := (h.processes p hp).coherent
    have hid : spec.id = new.languageId := hcoherent.id _ spec hget
    have hlisted : spec ∈ p.registry.list := hcoherent.mem_list.mpr (hid ▸ hget)
    rw [insertReferencing, if_pos]
    exact hid ▸ hserved hp hserving hlisted

/-- A process writes its language, another one with a newer version of it does so too and stops before it serves, and
the first one inserts a submission. -/
def twoProcesses : List DeploymentAction :=
  [.start [registeredPython], .sync 0 .acknowledged, .serve 0, .store (.fleet (.tick 60)),
    .start [{ registeredPython with version := "3.14" }], .sync 1 .lost,
    .insert 0 (pythonRequest.newSubmission .default 7 none [])]

/-- The state after that. -/
def afterTwoProcesses : Deployment := lastState Deployment.step .init twoProcesses

/-- The row is of the newer version, and the submission refers to it. -/
theorem languages_synced_twoProcesses :
    afterTwoProcesses.languages.map (fun row => (row.id, row.version, row.createdAt, row.updatedAt)) =
        [(71, "3.14", 0, 60)] ∧
      ∀ r ∈ afterTwoProcesses.fleet.rows, ∃ row ∈ afterTwoProcesses.languages, row.id = asI32 r.languageId := by
  have hfits : ∀ a ∈ twoProcesses, FitsIds a := by
    simp [twoProcesses, FitsIds, registeredPython]
  exact ⟨by decide +kernel, (languages_synced (.of_runActions_forall twoProcesses hfits
    (runActions_eq_lastState (by decide +kernel)))).2.2.2.1⟩

end ZeroCode.Api
