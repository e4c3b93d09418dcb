import ZeroCode.Foundation.OrderedStore
import ZeroCode.Foundation.Transition
import ZeroCode.Web.TestsPanel
import Mathlib.Logic.Function.Basic

/-!
# The stored tests of a source

The cases of the panel are stored under the hash of the source. When the source changes, one
effect loads what is stored for the new one and a second effect stores what is shown, in this
order, and what was loaded is shown and stored after that. The store is bounded, and a new
source drops the oldest ones when it is full.

What is shown therefore changes with every edit of the source. The cases survive one if the
new source is stored with them, and a source that is returned to shows its cases as long as
no other source has its key and the store has not dropped it.
-/

namespace ZeroCode.Web

open ZeroCode.Foundation

section Keys

/-- A digit to the base 36. -/
def digit36 (n : ℕ) : Char := if n < 10 then Char.ofNat (48 + n) else Char.ofNat (87 + n)

/-- The digits of a number to the base 36, with as much fuel as the number is large. -/
def digits36 : ℕ → ℕ → List Char
  | 0, _ => []
  | fuel + 1, n => if n < 36 then [digit36 n] else digits36 fuel (n / 36) ++ [digit36 (n % 36)]

/-- The hash of a source, over its code units. -/
def sourceHash (s : String) : String :=
  let h := (s.toList.flatMap utf16Units).foldl (fun h unit => (h * 33 % 2 ^ 32) ^^^ unit) 5381
  String.ofList (digits36 (h + 1) h)

/-- The key under which the cases of a source are stored. -/
def srcKey (langId : ℕ) (code : String) : String := toString langId ++ ":" ++ sourceHash code

end Keys

section Store

/-- A case without a run. -/
def bareCase (id stdin expected : String) : TestCase where
  id := id
  stdin := stdin
  expected := expected
  status := none
  statusDetail := none
  stdout := none
  stderr := none
  compileOutput := none
  time := none
  memory := none
  exitCode := none
  token := none
  passed := none

/-- What is stored of a case. -/
def TestCase.persisted (t : TestCase) : TestCase := bareCase t.id t.stdin t.expected

/-- What is stored for a source. -/
structure PersistedBucket where
  tests : List TestCase
  mode : ComparisonMode
  stopOnFail : Bool
  deriving DecidableEq, Repr

/-- The buckets by their keys, the oldest key first. No key is a plain number, which would come before all others. -/
abbrev PersistedStore := List (String × PersistedBucket)

/-- What is stored under a key. -/
def loadBucket (store : PersistedStore) (key : String) : Option PersistedBucket := store.lookup key

/-- The cases that are stored under a key. -/
def loadTests (store : PersistedStore) (key : String) : List TestCase :=
  ((loadBucket store key).map (·.tests)).getD []

/-- The keys that are dropped for a new one, if there are more than 30. -/
def overflow (store : PersistedStore) (key : String) : List String :=
  let keys := store.map Prod.fst
  if keys.length > 30 ∧ key ∉ keys then keys.take (keys.length - 29) else []

/-- The store with a bucket set. -/
def putBucket (store : PersistedStore) (key : String) (bucket : PersistedBucket) : PersistedStore :=
  put key bucket (deleteKeys (overflow store key) store)

end Store

section Panel

/-- The cases with what goes along with them, and how many identifiers were made. -/
structure CaseState where
  tests : List TestCase
  mode : ComparisonMode
  stopOnFail : Bool
  made : ℕ
  deriving DecidableEq, Repr

/-- The panel with the store of the browser. Once it is mounted, `hydratedFor` is the key of the source. -/
structure Panel where
  code : String
  cases : CaseState
  hydratedFor : Option String
  store : PersistedStore
  deriving DecidableEq, Repr

/-- What the user can do to the cases. -/
inductive CaseEdit
  | addCase
  | deleteCase (id : String)
  | patchStdin (id value : String)
  | patchExpected (id value : String)
  | importFile (parsed : List (String × String))
  | clearAll
  | setMode (mode : ComparisonMode)
  | setStopOnFail (value : Bool)
  deriving DecidableEq, Repr

/-- What the user can do. -/
inductive PanelAction
  | editCode (code : String)
  | editCases (edit : CaseEdit)
  deriving DecidableEq, Repr

variable (langId : ℕ) (fits : PersistedStore → Bool) (random : ℕ → String)

/-- The identifiers that are made. -/
def newId (n : ℕ) : String := "tc_" ++ random n

/-- A case with nothing entered. -/
def emptyCase (n : ℕ) : TestCase := bareCase (newId random n) "" ""

/-- One case with nothing entered. -/
def CaseState.clear (s : CaseState) : CaseState := { s with tests := [emptyCase random s.made], made := s.made + 1 }

/-- Show what was loaded, or one case with nothing entered. -/
def CaseState.hydrate (s : CaseState) : Option PersistedBucket → CaseState
  | some b =>
    if b.tests.length > 0 then
      { tests := b.tests.mapIdx fun i t =>
          bareCase (if t.id = "" then newId random (s.made + i) else t.id) t.stdin t.expected
        mode := b.mode
        stopOnFail := b.stopOnFail
        made := s.made + b.tests.length }
    else s.clear random
  | none => s.clear random

/-- An edit of the cases. Nothing is set when a case is added to 100 or a file without cases is imported. -/
def CaseState.update (s : CaseState) : CaseEdit → Option CaseState
  | .addCase =>
    if s.tests.length ≥ 100 then none
    else some { s with tests := s.tests ++ [emptyCase random s.made], made := s.made + 1 }
  | .deleteCase id =>
    if s.tests.length = 1 then some (s.clear random)
    else some { s with tests := s.tests.filter fun t => t.id ≠ id }
  | .patchStdin id value =>
    some { s with
      tests := s.tests.map fun t =>
        if t.id = id then { t with stdin := value, passed := none, stdout := none, stderr := none, status := none }
        else t }
  | .patchExpected id value =>
    some { s with tests := s.tests.map fun t => if t.id = id then { t with expected := value, passed := none } else t }
  | .importFile parsed =>
    if parsed.length = 0 then none
    else
      some { s with
        tests := (parsed.take 100).mapIdx fun i r => bareCase (newId random (s.made + i)) r.1 r.2
        made := s.made + (parsed.take 100).length }
  | .clearAll => some (s.clear random)
  | .setMode mode => some { s with mode := mode }
  | .setStopOnFail value => some { s with stopOnFail := value }

/-- What is stored of the cases. -/
def CaseState.bucket (s : CaseState) : PersistedBucket := ⟨s.tests.map TestCase.persisted, s.mode, s.stopOnFail⟩

/-- The store with the cases under the key of the source. -/
def Panel.saved (s : Panel) : PersistedStore := putBucket s.store (srcKey langId s.code) s.cases.bucket

/-- The effect that stores the cases. A store that the browser refuses is left as it was. -/
def Panel.persist (s : Panel) : Panel := if fits (s.saved langId) then { s with store := s.saved langId } else s

/-- A source is given to the panel. If its key is another one, the bucket is loaded first, then what is still shown is
stored under the new key, and then what was loaded is shown and stored. -/
def Panel.enter (s : Panel) (code : String) : Panel :=
  let key := srcKey langId code
  let s := { s with code := code }
  if s.hydratedFor = some key then s
  else
    let loaded := loadBucket s.store key
    let s := Panel.persist langId fits { s with hydratedFor := some key }
    Panel.persist langId fits { s with cases := s.cases.hydrate random loaded }

/-- The panel before its effects run for the first time. -/
def Panel.unmounted (store : PersistedStore) (code : String) : Panel where
  code := code
  cases := ⟨[emptyCase random 0], .trim, false, 1⟩
  hydratedFor := none
  store := store

/-- The panel is mounted with a source. -/
def Panel.mount (store : PersistedStore) (code : String) : Panel :=
  (Panel.unmounted random store code).enter langId fits random code

/-- An action with the effects that follow. -/
def Panel.step (s : Panel) : PanelAction → Panel
  | .editCode code => s.enter langId fits random code
  | .editCases edit =>
    match s.cases.update random edit with
    | some cases => Panel.persist langId fits { s with cases := cases }
    | none => s

end Panel

section Session

/-- What the user sees of the cases. -/
def CaseState.shown (s : CaseState) : List TestCase := s.tests.map TestCase.persisted

/-- Something is entered. -/
def TestCase.Entered (t : TestCase) : Prop := t.stdin ≠ "" ∨ t.expected ≠ ""

instance (t : TestCase) : Decidable t.Entered := inferInstanceAs (Decidable (_ ∨ _))

/-- The panel, and the cases that the user last saw for every source. -/
structure Session where
  panel : Panel
  had : String → Option (List TestCase)

/-- The user had tests for a source. -/
def Session.HadTests (s : Session) (code : String) : Prop := ∃ ts, s.had code = some ts ∧ ∃ t ∈ ts, t.Entered

/-- The user looks at the panel. -/
def Session.see (s : Session) (panel : Panel) : Session where
  panel := panel
  had := Function.update s.had panel.code (some panel.cases.shown)

variable (langId : ℕ) (fits : PersistedStore → Bool) (random : ℕ → String)

/-- The panel was mounted. -/
def Session.start (store : PersistedStore) (code : String) : Session :=
  Session.see ⟨Panel.mount langId fits random store code, fun _ => none⟩ (Panel.mount langId fits random store code)

/-- The user acts and sees what becomes of it. -/
def Session.step (s : Session) (action : PanelAction) : Session := s.see (s.panel.step langId fits random action)

/-- No test is lost by the action: after an edit of the source what was entered is shown, and a source for which the
user had tests shows these. -/
def Session.Keeps (s : Session) : PanelAction → Prop
  | .editCode code =>
    (∀ t ∈ s.panel.cases.shown, t.Entered →
      t ∈ (s.step langId fits random (.editCode code)).panel.cases.shown) ∧
      (s.HadTests code → s.had code = some (s.step langId fits random (.editCode code)).panel.cases.shown)
  | .editCases _ => True

/-- The store to which an action leads, unless the browser refuses it. -/
def Panel.target (s : Panel) : PanelAction → PersistedStore
  | .editCode code =>
    putBucket s.store (srcKey langId code) (s.cases.hydrate random (loadBucket s.store (srcKey langId code))).bucket
  | .editCases edit => putBucket s.store (srcKey langId s.code) ((s.cases.update random edit).getD s.cases).bucket

/-- Of the sources for which the user had tests no other one has the key of the source that is edited to, and none is
dropped for it. -/
structure Session.Spares (s : Session) (code : String) : Prop where
  apart : ∀ other, s.HadTests other → other ≠ code → srcKey langId other ≠ srcKey langId code
  kept : ∀ other, s.HadTests other → other ≠ code →
    srcKey langId other ∉ overflow s.panel.store (srcKey langId code)

/-- The browser takes the store, and an edit to another source spares the others. -/
def Session.Careful (s : Session) (action : PanelAction) : Prop :=
  fits (s.panel.target langId random action) = true ∧
    ∀ code, action = .editCode code → code ≠ s.panel.code → s.Spares langId code

/-- What is entered is stored already for the source that is edited to. -/
def Session.Carries (s : Session) (action : PanelAction) : Prop :=
  ∀ code, action = .editCode code → code ≠ s.panel.code → ∀ t ∈ s.panel.cases.shown, t.Entered →
    t ∈ loadTests s.panel.store (srcKey langId code)

end Session

section Effects

variable {langId : ℕ} {fits : PersistedStore → Bool} {random : ℕ → String}

/-- Where the key is stored nothing is dropped. -/
theorem overflow_of_mem {store : PersistedStore} {key : String} (h : key ∈ store.map Prod.fst) :
    overflow store key = [] := if_neg fun hdrop => hdrop.2 h

/-- A bucket that is set twice is set the second time. -/
theorem putBucket_putBucket (store : PersistedStore) (key : String) (old bucket : PersistedBucket) :
    putBucket (putBucket store key old) key bucket = putBucket store key bucket := by
  have hthere : overflow (putBucket store key old) key = [] := overflow_of_mem mem_keys_put
  rw [putBucket, hthere, deleteKeys_nil, putBucket, put_put, putBucket]

/-- The bucket that was set is loaded. -/
theorem loadBucket_putBucket (store : PersistedStore) (key : String) (bucket : PersistedBucket) :
    loadBucket (putBucket store key bucket) key = some bucket := lookup_put_self

/-- Another bucket that is not dropped is loaded as before. -/
theorem loadBucket_putBucket_ne {store : PersistedStore} {key other : String} {bucket : PersistedBucket}
    (hne : other ≠ key) (hkept : other ∉ overflow store key) :
    loadBucket (putBucket store key bucket) other = loadBucket store other :=
  (lookup_put_ne hne).trans (lookup_deleteKeys hkept)

/-- A source with the key of the panel changes nothing else. -/
theorem Panel.enter_of_eq {s : Panel} {code : String} (h : s.hydratedFor = some (srcKey langId code)) :
    s.enter langId fits random code = { s with code := code } := if_pos h

/-- A source with another key shows what is stored for it, and this is stored, whether or not the store with what was
shown before was refused in between. -/
theorem Panel.enter_of_ne {s : Panel} {code : String} (h : s.hydratedFor ≠ some (srcKey langId code))
    (hfits : fits (s.target langId random (.editCode code)) = true) :
    s.enter langId fits random code =
      { code := code
        cases := s.cases.hydrate random (loadBucket s.store (srcKey langId code))
        hydratedFor := some (srcKey langId code)
        store := s.target langId random (.editCode code) } := by
  rw [Panel.target] at hfits ⊢
  unfold Panel.enter Panel.persist Panel.saved
  dsimp only
  rw [if_neg h]
  by_cases hold : fits (putBucket s.store (srcKey langId code) s.cases.bucket) = true
  · simp only [if_pos hold, putBucket_putBucket, if_pos hfits]
  · simp only [if_neg hold, if_pos hfits]

/-- The cases after an edit of them are stored. -/
theorem Panel.step_editCases {s : Panel} {edit : CaseEdit} {cases : CaseState}
    (hupdate : s.cases.update random edit = some cases)
    (hfits : fits (s.target langId random (.editCases edit)) = true) :
    s.step langId fits random (.editCases edit) =
      { s with cases := cases, store := putBucket s.store (srcKey langId s.code) cases.bucket } := by
  rw [Panel.target, hupdate, Option.getD_some] at hfits
  rw [Panel.step, hupdate]
  exact if_pos hfits

end Effects

section Cases

variable {random : ℕ → String}

/-- Every case has an identifier. -/
def CaseState.HasIds (s : CaseState) : Prop := ∀ t ∈ s.tests, t.id ≠ ""

/-- What is stored of a case, with an identifier. -/
def TestCase.Stored (t : TestCase) : Prop := t.id ≠ "" ∧ t.persisted = t

/-- An identifier that was made is not empty. -/
theorem newId_ne (n : ℕ) : newId random n ≠ "" := by
  intro hempty
  have hlist := congrArg String.toList hempty
  rw [newId, String.toList_append] at hlist
  cases hlist

/-- A case with nothing entered has an identifier. -/
theorem CaseState.hasIds_clear (s : CaseState) : (s.clear random).HasIds :=
  List.forall_mem_singleton.mpr (newId_ne s.made)

/-- Whatever is loaded, its cases get identifiers. -/
theorem CaseState.hasIds_hydrate (s : CaseState) (loaded : Option PersistedBucket) :
    (s.hydrate random loaded).HasIds := by
  cases loaded with
  | none => exact s.hasIds_clear
  | some b =>
    rw [hydrate]
    split_ifs with hsome
    · intro t ht
      obtain ⟨i, hi, rfl⟩ := List.mem_mapIdx.mp ht
      rw [bareCase]
      split_ifs with hid
      · exact newId_ne _
      · exact hid
    · exact s.hasIds_clear

/-- The cases keep their identifiers, and new ones get some. -/
theorem CaseState.HasIds.update {s next : CaseState} (h : s.HasIds) {edit : CaseEdit}
    (hupdate : s.update random edit = some next) : next.HasIds := by
  cases edit with
  | addCase =>
    rw [CaseState.update] at hupdate
    split_ifs at hupdate
    cases hupdate
    exact List.forall_mem_append.mpr ⟨h, List.forall_mem_singleton.mpr (newId_ne s.made)⟩
  | deleteCase id =>
    rw [CaseState.update] at hupdate
    split_ifs at hupdate
    · cases hupdate
      exact s.hasIds_clear
    · cases hupdate
      exact fun t ht => h t (List.mem_filter.mp ht).1
  | patchStdin id value =>
    cases hupdate
    intro t ht
    obtain ⟨old, hold, rfl⟩ := List.mem_map.mp ht
    split_ifs <;> exact h old hold
  | patchExpected id value =>
    cases hupdate
    intro t ht
    obtain ⟨old, hold, rfl⟩ := List.mem_map.mp ht
    split_ifs <;> exact h old hold
  | importFile parsed =>
    rw [CaseState.update] at hupdate
    split_ifs at hupdate
    cases hupdate
    intro t ht
    obtain ⟨i, hi, rfl⟩ := List.mem_mapIdx.mp ht
    exact newId_ne _
  | clearAll =>
    cases hupdate
    exact s.hasIds_clear
  | setMode mode =>
    cases hupdate
    exact h
  | setStopOnFail value =>
    cases hupdate
    exact h

/-- What is seen is as it is stored. -/
theorem CaseState.HasIds.stored {s : CaseState} (h : s.HasIds) : ∀ t ∈ s.shown, t.Stored := by
  intro t ht
  obtain ⟨old, hold, rfl⟩ := List.mem_map.mp ht
  exact ⟨h old hold, rfl⟩

/-- A stored case is shown as it is. -/
theorem TestCase.Stored.hydrated {t : TestCase} (h : t.Stored) (other : String) :
    bareCase (if t.id = "" then other else t.id) t.stdin t.expected = t := by
  rw [if_neg h.1]
  exact h.2

/-- Stored cases are shown as they are. -/
theorem CaseState.shown_hydrate {b : PersistedBucket} (hne : b.tests ≠ []) (h : ∀ t ∈ b.tests, t.Stored)
    (s : CaseState) : (s.hydrate random (some b)).shown = b.tests := by
  rw [hydrate, if_pos (List.length_pos_iff.mpr hne), shown]
  refine List.ext_getElem (by rw [List.length_map, List.length_mapIdx]) fun i hi hi' => ?_
  have hstored := h _ (List.getElem_mem hi')
  rw [List.getElem_map, List.getElem_mapIdx, hstored.hydrated, hstored.2]

/-- A case that is loaded is shown. -/
theorem CaseState.mem_shown_hydrate {store : PersistedStore} {key : String} {t : TestCase} (ht : t ∈ loadTests store key)
    (h : t.Stored) (s : CaseState) : t ∈ (s.hydrate random (loadBucket store key)).shown := by
  rw [loadTests] at ht
  cases hload : loadBucket store key with
  | none =>
    rw [hload] at ht
    cases ht
  | some b =>
    rw [hload, Option.map_some, Option.getD_some] at ht
    rw [hydrate, if_pos (List.length_pos_of_mem ht), shown]
    obtain ⟨i, hi, rfl⟩ := List.mem_iff_getElem.mp ht
    refine List.mem_map.mpr ⟨b.tests[i], List.mem_mapIdx.mpr ⟨i, hi, ?_⟩, h.2⟩
    exact h.hydrated _

end Cases

section Runs

variable {langId : ℕ} {fits : PersistedStore → Bool} {random : ℕ → String}

/-- The cases of the panel are stored under the key of its source, and so are the cases of every other source for which
the user had tests, which has another key. -/
structure Session.Kept (langId : ℕ) (s : Session) : Prop where
  hydrated : s.panel.hydratedFor = some (srcKey langId s.panel.code)
  seen : s.had s.panel.code = some s.panel.cases.shown
  current : loadBucket s.panel.store (srcKey langId s.panel.code) = some s.panel.cases.bucket
  apart : ∀ other, s.HadTests other → other ≠ s.panel.code → srcKey langId other ≠ srcKey langId s.panel.code
  others : ∀ other, s.HadTests other → other ≠ s.panel.code → ∀ ts, s.had other = some ts →
    ∃ b, loadBucket s.panel.store (srcKey langId other) = some b ∧ b.tests = ts
  stored : ∀ other ts, s.had other = some ts → ∀ t ∈ ts, t.Stored
  ids : s.panel.cases.HasIds

/-- What the user had for another source than the one that is seen. -/
theorem Session.see_had_of_ne {s : Session} {panel : Panel} {other : String} (h : other ≠ panel.code) :
    (s.see panel).had other = s.had other := Function.update_of_ne h _ _

/-- What the user had for the source that is seen. -/
theorem Session.see_had_self (s : Session) (panel : Panel) :
    (s.see panel).had panel.code = some panel.cases.shown := Function.update_self _ _ _

/-- For another source than the one that is seen the user had tests before. -/
theorem Session.hadTests_of_see {s : Session} {panel : Panel} {other : String} (h : (s.see panel).HadTests other)
    (hne : other ≠ panel.code) : s.HadTests other := by
  obtain ⟨ts, hhad, hentered⟩ := h
  exact ⟨ts, (Session.see_had_of_ne hne).symm.trans hhad, hentered⟩

/-- A panel whose cases are stored under the key of its source is seen, and every other source for which the user had
tests has another key and the store its cases. -/
theorem Session.Kept.see {s : Session} {panel : Panel} (hydrated : panel.hydratedFor = some (srcKey langId panel.code))
    (current : loadBucket panel.store (srcKey langId panel.code) = some panel.cases.bucket)
    (ids : panel.cases.HasIds) (stored : ∀ other ts, s.had other = some ts → ∀ t ∈ ts, t.Stored)
    (others : ∀ other, s.HadTests other → other ≠ panel.code → srcKey langId other ≠ srcKey langId panel.code ∧
      ∀ ts, s.had other = some ts → ∃ b, loadBucket panel.store (srcKey langId other) = some b ∧ b.tests = ts) :
    (s.see panel).Kept langId where
  hydrated := hydrated
  seen := s.see_had_self panel
  current := current
  apart other hhad hne := (others other (Session.hadTests_of_see hhad hne) hne).1
  others other hhad hne ts hts :=
    (others other (Session.hadTests_of_see hhad hne) hne).2 ts ((Session.see_had_of_ne hne).symm.trans hts)
  stored other ts hhad := by
    by_cases hsame : other = panel.code
    · rw [hsame, Session.see_had_self] at hhad
      cases hhad
      exact ids.stored
    · exact stored other ts ((Session.see_had_of_ne hsame).symm.trans hhad)
  ids := ids

/-- What the user had for a source is stored under its key, also for the source of the panel. -/
theorem Session.Kept.bucket {s : Session} (h : s.Kept langId) {other : String} (hhad : s.HadTests other)
    {ts : List TestCase} (hts : s.had other = some ts) :
    ∃ b, loadBucket s.panel.store (srcKey langId other) = some b ∧ b.tests = ts := by
  by_cases hsame : other = s.panel.code
  · rw [hsame] at hts ⊢
    exact ⟨_, h.current, Option.some.inj (h.seen.symm.trans hts)⟩
  · exact h.others other hhad hsame ts hts

/-- An edit of the cases changes the bucket of the source alone. -/
theorem Session.Kept.editCases {s : Session} (h : s.Kept langId) {edit : CaseEdit}
    (hfits : fits (s.panel.target langId random (.editCases edit)) = true) :
    (s.step langId fits random (.editCases edit)).Kept langId := by
  cases hupdate : s.panel.cases.update random edit with
  | none =>
    have hsame : s.panel.step langId fits random (.editCases edit) = s.panel := by rw [Panel.step, hupdate]
    rw [Session.step, hsame]
    exact .see h.hydrated h.current h.ids h.stored fun other hhad hne => ⟨h.apart other hhad hne, h.others other hhad hne⟩
  | some cases =>
    rw [Session.step, Panel.step_editCases hupdate hfits]
    refine .see h.hydrated (loadBucket_putBucket _ _ _) (h.ids.update hupdate) h.stored fun other hhad hne => ?_
    have hnone : overflow s.panel.store (srcKey langId s.panel.code) = [] :=
      overflow_of_mem (mem_keys_of_lookup h.current)
    have hkey := h.apart other hhad hne
    refine ⟨hkey, fun ts hts => ?_⟩
    rw [loadBucket_putBucket_ne hkey (by rw [hnone]; exact List.not_mem_nil)]
    exact h.others other hhad hne ts hts

/-- Every other source for which the user had tests has another key than the one that is edited to. -/
theorem Session.Careful.apart {s : Session} (h : s.Kept langId) {code : String}
    (hcareful : s.Careful langId fits random (.editCode code)) {other : String} (hhad : s.HadTests other)
    (hne : other ≠ code) : srcKey langId other ≠ srcKey langId code := by
  by_cases hsame : code = s.panel.code
  · rw [hsame] at hne ⊢
    exact h.apart other hhad hne
  · exact (hcareful.2 code rfl hsame).apart other hhad hne

/-- A careful edit of the source leaves the buckets of the others alone. -/
theorem Session.Kept.editCode {s : Session} (h : s.Kept langId) {code : String}
    (hcareful : s.Careful langId fits random (.editCode code)) :
    (s.step langId fits random (.editCode code)).Kept langId := by
  have hapart {other : String} (hhad : s.HadTests other) (hne : other ≠ code) := hcareful.apart h hhad hne
  rw [Session.step, Panel.step]
  by_cases hkey : s.panel.hydratedFor = some (srcKey langId code)
  · have hsame : srcKey langId s.panel.code = srcKey langId code := Option.some.inj (h.hydrated.symm.trans hkey)
    rw [Panel.enter_of_eq hkey]
    refine .see hkey (hsame ▸ h.current) h.ids h.stored fun other hhad hne => ⟨hapart hhad hne, ?_⟩
    exact fun ts hts => h.bucket hhad hts
  · have hne : code ≠ s.panel.code := fun heq => hkey (heq ▸ h.hydrated)
    rw [Panel.enter_of_ne hkey hcareful.1]
    refine .see rfl (loadBucket_putBucket _ _ _) (s.panel.cases.hasIds_hydrate _) h.stored fun other hhad hother => ?_
    refine ⟨hapart hhad hother, fun ts hts => ?_⟩
    have hsame : loadBucket (s.panel.target langId random (.editCode code)) (srcKey langId other) =
        loadBucket s.panel.store (srcKey langId other) :=
      loadBucket_putBucket_ne (hapart hhad hother) ((hcareful.2 code rfl hne).kept other hhad hother)
    rw [hsame]
    exact h.bucket hhad hts

/-- After a careful edit of the source the user sees the tests that were there for it. -/
theorem Session.Kept.returns {s : Session} (h : s.Kept langId) {code : String}
    (hcareful : s.Careful langId fits random (.editCode code)) (hhad : s.HadTests code) :
    s.had code = some (s.step langId fits random (.editCode code)).panel.cases.shown := by
  change s.had code = some (s.panel.enter langId fits random code).cases.shown
  by_cases hkey : s.panel.hydratedFor = some (srcKey langId code)
  · have hsame : srcKey langId s.panel.code = srcKey langId code := Option.some.inj (h.hydrated.symm.trans hkey)
    have hcode : code = s.panel.code := by
      by_contra hne
      exact h.apart code hhad hne hsame.symm
    rw [Panel.enter_of_eq hkey, hcode]
    exact h.seen
  · obtain ⟨ts, hts, hentered⟩ := id hhad
    obtain ⟨b, hload, rfl⟩ := h.bucket hhad hts
    have hne : b.tests ≠ [] := by
      obtain ⟨t, ht, _⟩ := hentered
      exact List.ne_nil_of_mem ht
    rw [Panel.enter_of_ne hkey hcareful.1, hload, hts, CaseState.shown_hydrate hne (h.stored code _ hts)]

/-- After a careful edit of the source the user still sees what was entered, if it is stored for the new source. -/
theorem Session.Kept.carries {s : Session} (h : s.Kept langId) {code : String}
    (hcareful : s.Careful langId fits random (.editCode code)) (hcarries : s.Carries langId (.editCode code)) :
    ∀ t ∈ s.panel.cases.shown, t.Entered →
      t ∈ (s.step langId fits random (.editCode code)).panel.cases.shown := by
  intro t ht hentered
  change t ∈ (s.panel.enter langId fits random code).cases.shown
  by_cases hkey : s.panel.hydratedFor = some (srcKey langId code)
  · rw [Panel.enter_of_eq hkey]
    exact ht
  · have hne : code ≠ s.panel.code := fun heq => hkey (heq ▸ h.hydrated)
    rw [Panel.enter_of_ne hkey hcareful.1]
    exact CaseState.mem_shown_hydrate (hcarries code rfl hne t ht hentered) (h.ids.stored t ht) _

/-- After the mount the cases are stored, if the browser takes them. -/
theorem Session.kept_start {store : PersistedStore} {code : String}
    (hfits : fits ((Panel.unmounted random store code).target langId random (.editCode code)) = true) :
    (Session.start langId fits random store code).Kept langId := by
  have hkey : (Panel.unmounted random store code).hydratedFor ≠ some (srcKey langId code) := by simp [Panel.unmounted]
  rw [Session.start, Panel.mount, Panel.enter_of_ne hkey hfits]
  refine .see rfl (loadBucket_putBucket _ _ _) (CaseState.hasIds_hydrate _ _) ?_ ?_
  · rintro other ts ⟨⟩
  · rintro other ⟨ts, ⟨⟩, _⟩

/-- The session after an action, which there always is. -/
def Session.next (langId : ℕ) (fits : PersistedStore → Bool) (random : ℕ → String) (s : Session)
    (action : PanelAction) : Option Session := some (s.step langId fits random action)

variable {store : PersistedStore} {start : String} {s : Session}

/-- In a run of careful actions the cases that the user had for a source stay stored. -/
theorem Session.kept_of_reaches
    (hmount : fits ((Panel.unmounted random store start).target langId random (.editCode start)) = true)
    (reached : Reaches (Session.next langId fits random) (Session.Careful langId fits random)
      (Session.start langId fits random store start) s) : s.Kept langId := by
  refine reached.invariant (Session.Kept langId) (Session.kept_start hmount) ?_
  intro s action t hkept hcareful hstep
  cases hstep
  cases action with
  | editCode code => exact hkept.editCode hcareful
  | editCases edit => exact hkept.editCases hcareful.1

/-- In a run of careful actions, a source that is returned to shows the tests that the user had for it. -/
theorem Session.returning_shows_tests
    (hmount : fits ((Panel.unmounted random store start).target langId random (.editCode start)) = true)
    (reached : Reaches (Session.next langId fits random) (Session.Careful langId fits random)
      (Session.start langId fits random store start) s) {code : String}
    (hcareful : s.Careful langId fits random (.editCode code)) (hhad : s.HadTests code) :
    s.had code = some (s.step langId fits random (.editCode code)).panel.cases.shown :=
  (Session.kept_of_reaches hmount reached).returns hcareful hhad

/-- In every run whose actions are careful and carry what is entered over, every action keeps the tests. -/
theorem Session.careful_run_keeps
    (hmount : fits ((Panel.unmounted random store start).target langId random (.editCode start)) = true)
    (reached : Reaches (Session.next langId fits random)
      (fun s action => s.Careful langId fits random action ∧ s.Carries langId action)
      (Session.start langId fits random store start) s)
    {action : PanelAction} (hcareful : s.Careful langId fits random action) (hcarries : s.Carries langId action) :
    s.Keeps langId fits random action := by
  have hrun := reached.mono fun _ _ both => both.1
  cases action with
  | editCases edit => trivial
  | editCode code =>
    exact ⟨(Session.kept_of_reaches hmount hrun).carries hcareful hcarries,
      Session.returning_shows_tests hmount hrun hcareful⟩

end Runs

/-- A case with an input. -/
def storedCase : TestCase := bareCase "tc_x" "1" ""

/-- A bucket with some cases. -/
def bucketOf (tests : List TestCase) : PersistedBucket := ⟨tests, .trim, false⟩

/-- Two sources are stored with the same case. -/
def sharedStore : PersistedStore :=
  [(srcKey 71 "a", bucketOf [storedCase]), (srcKey 71 "b", bucketOf [storedCase])]

/-- The session of the first of these sources. -/
def sharedSession : Session := Session.start 71 (fun _ => true) (fun _ => "x") sharedStore "a"

/-- The user only had tests for the source with which the panel was mounted. -/
theorem eq_of_hadTests_sharedSession {other : String} (h : sharedSession.HadTests other) : other = "a" := by
  by_contra hne
  obtain ⟨_, hnone, _⟩ := Session.hadTests_of_see h hne
  cases hnone

/-- An edit to the source that is stored with the same case still shows it. -/
theorem Session.careful_run_keeps_shared :
    (sharedSession.step 71 (fun _ => true) (fun _ => "x") (.editCode "b")).panel.cases.shown = [storedCase] ∧
      sharedSession.Keeps 71 (fun _ => true) (fun _ => "x") (.editCode "b") := by
  refine ⟨by decide +kernel, Session.careful_run_keeps rfl .refl ⟨rfl, ?_⟩ ?_⟩
  · rintro code ⟨⟩ _
    constructor
    · intro other hhad _
      rw [eq_of_hadTests_sharedSession hhad]
      decide +kernel
    · intro other hhad _
      rw [eq_of_hadTests_sharedSession hhad]
      decide +kernel
  · rintro code ⟨⟩ _
    decide +kernel

/-- A source without cases, and thirty others after it. -/
def fullStore : PersistedStore :=
  (srcKey 71 "a", bucketOf []) :: (List.range 30).map fun n => ("71:" ++ toString n, bucketOf [])

/-- A case is entered for that source. -/
def enteredSession : Session :=
  (Session.start 71 (fun _ => true) (fun _ => "x") fullStore "a").step 71 (fun _ => true) (fun _ => "x")
    (.editCases (.patchStdin "tc_x" "1"))

/-- The source after the next edit. -/
def editedSession : Session := enteredSession.step 71 (fun _ => true) (fun _ => "x") (.editCode "ab")

/-- An edit of the source shows none of the cases that were entered, and when the edit is undone they are gone. -/
theorem Session.editing_loses_tests :
    enteredSession.panel.cases.shown = [storedCase] ∧ editedSession.panel.cases.shown = [bareCase "tc_x" "" ""] ∧
      (editedSession.step 71 (fun _ => true) (fun _ => "x") (.editCode "a")).panel.cases.shown =
        [bareCase "tc_x" "" ""] ∧
      ¬ ∀ (langId : ℕ) (fits : PersistedStore → Bool) (random : ℕ → String) (store : PersistedStore) (start : String)
        (s : Session), Reachable (Session.next langId fits random) (Session.start langId fits random store start) s →
          ∀ action, s.Keeps langId fits random action := by
  have hentered : enteredSession.panel.cases.shown = [storedCase] := by decide +kernel
  have hedited : editedSession.panel.cases.shown = [bareCase "tc_x" "" ""] := by decide +kernel
  refine ⟨hentered, hedited, by decide +kernel, fun hall => ?_⟩
  have hreached : Reachable (Session.next 71 (fun _ => true) (fun _ => "x"))
      (Session.start 71 (fun _ => true) (fun _ => "x") fullStore "a") enteredSession := .tail .refl trivial rfl
  have hkeeps := (hall _ _ _ _ _ _ hreached (.editCode "ab")).1 storedCase (by rw [hentered]; exact List.mem_cons_self)
    (by decide)
  rw [← editedSession, hedited] at hkeeps
  exact absurd hkeeps (by decide)

end ZeroCode.Web
