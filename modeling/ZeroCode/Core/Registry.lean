import Mathlib.Logic.Function.Basic
import ZeroCode.Core.Language

/-!
# The registry of languages

Every process loads the languages when it starts, in the order of the file. A file may list
an identifier more than once: the last entry counts, and it is listed for each of them.
-/

namespace ZeroCode.Core

/-- Which backend executes the submissions of a language. -/
inductive SandboxTier
  | native
  | wasm
  deriving DecidableEq, Repr

/-- A language as it is registered. -/
structure Language extends LanguageSpec where
  name : String
  version : String
  isArchived : Bool
  tier : SandboxTier
  deriving DecidableEq, Repr

/-- The languages by their identifiers, and the identifiers in the order of the file. -/
structure LanguageRegistry where
  byId : ℕ → Option Language
  order : List ℕ

/-- Nothing is registered. -/
def LanguageRegistry.default : LanguageRegistry := ⟨fun _ => none, []⟩

/-- Register one more language. -/
def LanguageRegistry.insert (registry : LanguageRegistry) (s : Language) : LanguageRegistry where
  byId := Function.update registry.byId s.id (some s)
  order := registry.order ++ [s.id]

/-- Register the languages in their order. -/
def LanguageRegistry.fromSpecs (specs : List Language) : LanguageRegistry :=
  specs.foldl LanguageRegistry.insert .default

/-- The language with this identifier. -/
def LanguageRegistry.get (registry : LanguageRegistry) (id : ℕ) : Option Language := registry.byId id

/-- The language with this identifier, or the identifier that is unknown. -/
def LanguageRegistry.require (registry : LanguageRegistry) (id : ℕ) : Except ℕ Language :=
  match registry.byId id with
  | some spec => .ok spec
  | none => .error id

/-- All languages in the order of the file. -/
def LanguageRegistry.list (registry : LanguageRegistry) : List Language := registry.order.filterMap registry.byId

/-- Every identifier is that of its language, and the identifiers that are listed are those that are known. -/
structure LanguageRegistry.Coherent (registry : LanguageRegistry) : Prop where
  id : ∀ id spec, registry.byId id = some spec → spec.id = id
  known : ∀ id, (registry.byId id).isSome = true ↔ id ∈ registry.order

/-- The language that was registered last. -/
theorem LanguageRegistry.byId_insert_self (registry : LanguageRegistry) (s : Language) :
    (registry.insert s).byId s.id = some s := Function.update_self ..

/-- Registering a language changes no other one. -/
theorem LanguageRegistry.byId_insert_of_ne (registry : LanguageRegistry) {s : Language} {id : ℕ} (hid : id ≠ s.id) :
    (registry.insert s).byId id = registry.byId id := Function.update_of_ne hid ..

/-- The empty registry is coherent. -/
theorem LanguageRegistry.coherent_default : LanguageRegistry.default.Coherent where
  id _ _ h := by cases h
  known _ := by simp [LanguageRegistry.default]

/-- Registering a language keeps a registry coherent. -/
theorem LanguageRegistry.Coherent.insert {registry : LanguageRegistry} (h : registry.Coherent) (s : Language) :
    (registry.insert s).Coherent where
  id id spec hspec := by
    by_cases hid : id = s.id
    · subst hid
      rw [registry.byId_insert_self] at hspec
      obtain rfl := Option.some.inj hspec
      rfl
    · rw [registry.byId_insert_of_ne hid] at hspec
      exact h.id id spec hspec
  known id := by
    by_cases hid : id = s.id
    · subst hid
      rw [registry.byId_insert_self]
      exact ⟨fun _ => List.mem_append_right _ List.mem_cons_self, fun _ => rfl⟩
    · rw [registry.byId_insert_of_ne hid, h.known id, LanguageRegistry.insert, List.mem_append, List.mem_singleton]
      exact ⟨Or.inl, fun hmem => hmem.resolve_right hid⟩

/-- A registry that was loaded is coherent. -/
theorem LanguageRegistry.coherent_fromSpecs (specs : List Language) : (fromSpecs specs).Coherent := by
  suffices hfold : ∀ registry : LanguageRegistry, registry.Coherent →
      (specs.foldl LanguageRegistry.insert registry).Coherent from hfold _ coherent_default
  induction specs with
  | nil => exact fun _ h => h
  | cons s rest ih => exact fun registry h => ih _ (h.insert s)

/-- The order of a registry is that of its entries. -/
theorem LanguageRegistry.order_fromSpecs (specs : List Language) : (fromSpecs specs).order = specs.map (·.id) := by
  suffices hfold : ∀ registry : LanguageRegistry,
      (specs.foldl LanguageRegistry.insert registry).order = registry.order ++ specs.map (·.id) from hfold _
  induction specs with
  | nil => exact fun registry => (List.append_nil _).symm
  | cons s rest ih =>
    intro registry
    rw [List.foldl_cons, ih, LanguageRegistry.insert, List.append_assoc]
    rfl

section Coherent

variable {registry : LanguageRegistry}

/-- A listed language is the one with its identifier. -/
theorem LanguageRegistry.Coherent.mem_list (h : registry.Coherent) {spec : Language} :
    spec ∈ registry.list ↔ registry.get spec.id = some spec := by
  rw [LanguageRegistry.list, List.mem_filterMap]
  constructor
  · rintro ⟨id, -, hspec⟩
    rw [LanguageRegistry.get, h.id id spec hspec, hspec]
  · intro hget
    exact ⟨spec.id, (h.known spec.id).mp (Option.isSome_of_eq_some hget), hget⟩

/-- The identifiers of the listed languages are those of the file. -/
theorem LanguageRegistry.Coherent.map_id_list (h : registry.Coherent) : registry.list.map (·.id) = registry.order := by
  suffices hsome : ∀ ids : List ℕ, (∀ id ∈ ids, id ∈ registry.order) → (ids.filterMap registry.byId).map (·.id) = ids
    from hsome registry.order fun _ hid => hid
  intro ids hids
  induction ids with
  | nil => rfl
  | cons id rest ih =>
    obtain ⟨spec, hspec⟩ := Option.isSome_iff_exists.mp ((h.known id).mpr (hids id List.mem_cons_self))
    rw [List.filterMap_cons, hspec, List.map_cons, h.id id spec hspec,
      ih fun other hother => hids other (List.mem_cons_of_mem id hother)]

end Coherent

/-- Python, as a file has it. -/
def registeredPython : Language where
  id := 71
  sourceFile := "main.py"
  compileCmd := some []
  runCmd := ["/usr/bin/python3.13", "main.py"]
  env := []
  defaultLimits := none
  compileLimits := none
  name := "Python"
  version := "3.13"
  isArchived := false
  tier := .native

end ZeroCode.Core
