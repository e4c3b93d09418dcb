import ZeroCode.Sandbox.Execute
import ZeroCode.Sandbox.Placeholders

/-!
# The key of the compile cache

The compile key hashes the language id, the source and a hint for the compile options,
for which the worker passes the empty string. Two jobs with one key therefore agree on
the id and the source, and on nothing else: what their compile commands and environments
have in common depends on the specifications the id stood for. The hash is a parameter,
and so is its digest type, since no function into 32 bytes is free of collisions.
-/

namespace ZeroCode.Cache

open ZeroCode.Core ZeroCode.Foundation ZeroCode.Sandbox

/-- The `count` low bytes of a number, the lowest first. -/
def toLeBytes : ℕ → ℕ → Bytes
  | 0, _ => []
  | count + 1, n => UInt8.ofNat n :: toLeBytes count (n / 256)

/-- What is hashed for a compile key. -/
def compileKeyInput (languageId : ℕ) (source compileOptions : Bytes) : Bytes :=
  "zerocode/compile/v1\x00".toUTF8.toList ++ toLeBytes 4 languageId ++ toLeBytes 8 source.length ++ source ++
    toLeBytes 8 compileOptions.length ++ compileOptions

/-- The encoding has a fixed length. -/
@[simp]
theorem toLeBytes_length (count n : ℕ) : (toLeBytes count n).length = count := by
  induction count generalizing n with
  | zero => rfl
  | succ count ih => simp [toLeBytes, ih]

/-- A number that fits is determined by its bytes. -/
theorem toLeBytes_inj {count m n : ℕ} (hm : m < 256 ^ count) (hn : n < 256 ^ count) :
    toLeBytes count m = toLeBytes count n ↔ m = n := by
  refine ⟨?_, fun h => by rw [h]⟩
  induction count generalizing m n with
  | zero =>
    intro _
    rw [Nat.pow_zero, Nat.lt_one_iff] at hm hn
    rw [hm, hn]
  | succ count ih =>
    intro h
    rw [toLeBytes, toLeBytes, List.cons.injEq] at h
    have hlow : m % 256 = n % 256 := by simpa using congrArg UInt8.toNat h.1
    have hhigh : m / 256 = n / 256 := by
      refine ih ?_ ?_ h.2
      · exact Nat.div_lt_of_lt_mul (by rwa [← Nat.pow_succ'])
      · exact Nat.div_lt_of_lt_mul (by rwa [← Nat.pow_succ'])
    omega

/-- With the same options, the hashed bytes determine the id and the source. -/
theorem compileKeyInput_inj {id id' : ℕ} (hid : id < 2 ^ 32) (hid' : id' < 2 ^ 32)
    {source source' compileOptions : Bytes} :
    compileKeyInput id source compileOptions = compileKeyInput id' source' compileOptions ↔
      id = id' ∧ source = source' := by
  refine ⟨?_, fun h => by rw [h.1, h.2]⟩
  intro h
  simp only [compileKeyInput, List.append_assoc, List.append_right_inj] at h
  obtain ⟨hids, h⟩ := List.append_inj h (by simp)
  obtain ⟨_, h⟩ := List.append_inj h (by simp)
  exact ⟨(toLeBytes_inj hid hid').mp hids, List.append_cancel_right h⟩

variable {Digest : Type*} (blake3 : Bytes → Digest)

/-- The key of a compiled artifact. -/
def CacheKey.compile (languageId : ℕ) (source compileOptions : Bytes) : Digest :=
  blake3 (compileKeyInput languageId source compileOptions)

/-- The key under which the worker looks up and stores the artifact of a job. -/
def compileKey (job : SandboxJob) : Option Digest :=
  if job.language.compileCmd.isSome then some (CacheKey.compile blake3 job.language.id job.sourceCode []) else none

/-- What the compiler of a job is executed with. -/
def compileInvocation (job : SandboxJob) : Option (List CString) × List CString :=
  (buildCompileArgv job.language job.limits, buildEnv job.language job.limits)

/-- Jobs of the two specifications that share a key are compiled the same way. -/
def SharesOnlySameCompilations (a b : LanguageSpec) : Prop :=
  ∀ job job' : SandboxJob, job.language = a → job'.language = b →
    ∀ key, compileKey blake3 job = some key → compileKey blake3 job' = some key →
      compileInvocation job = compileInvocation job'

/-- The string can be passed to `execvpe`. -/
def nulFree (s : String) : Bool := Char.ofNat 0 ∉ s.toList

/-- The compile command before substitution, without the strings that are dropped. -/
def compileTemplate (spec : LanguageSpec) : Option (List String) :=
  match spec.compileCmd with
  | none => none
  | some cmd => if cmd.isEmpty then none else some (cmd.filter nulFree)

/-- The variables of the language that are not dropped. -/
def envTemplate (spec : LanguageSpec) : List (String × String) :=
  spec.env.filter fun (k, v) => nulFree (k ++ "=" ++ v)

/-- A variable as it is passed. -/
def assignment (entry : String × String) : String := entry.1 ++ "=" ++ entry.2

/-- No limit reaches the compiler. -/
structure LimitFree (spec : LanguageSpec) : Prop where
  argv : ∀ cmd, compileTemplate spec = some cmd → ∀ s ∈ cmd, ¬ MentionsLimit s
  env : ∀ entry ∈ envTemplate spec, ¬ MentionsLimit entry.2

/-- The two specifications have one compile command and one environment, both without limits. -/
structure CompilesAlike (a b : LanguageSpec) : Prop where
  argv : compileTemplate a = compileTemplate b
  env : (envTemplate a).map assignment = (envTemplate b).map assignment
  first : LimitFree a
  second : LimitFree b

/-- Strings made of templates: those free of limits print as themselves, the others tell small
limits from large ones, and no NUL comes or goes. -/
structure Templated {E : Type*} (text : E → ResourceLimits → String) (template : E → String) (free : E → Prop) :
    Prop where
  kept : ∀ e, free e → ∀ limits, text e limits = template e
  tells : ∀ e, text e smallLimits = text e largeLimits → free e
  nul : ∀ e limits, nulFree (text e limits) = nulFree (template e)

/-- The strings of a command are templates. -/
theorem templated_command : Templated substituteLimits id fun s => ¬ MentionsLimit s where
  kept _ h limits := substituteLimits_eq_self h limits
  tells s h := (substituteLimits_small_eq_large_iff s).mp h
  nul s limits := by rw [nulFree, nulFree, id, decide_eq_decide, nul_mem_substituteLimits_iff]

/-- The variables of an environment are templates. -/
theorem templated_assignment :
    Templated (fun entry limits => assignment (entry.1, substituteLimits entry.2 limits)) assignment
      fun entry => ¬ MentionsLimit entry.2 where
  kept entry h limits := by rw [substituteLimits_eq_self h]
  tells entry h := by
    refine (substituteLimits_small_eq_large_iff entry.2).mp ?_
    have hlist := congrArg String.toList h
    simp only [assignment, String.toList_append, List.append_cancel_left_eq] at hlist
    exact String.toList_inj.mp hlist
  nul entry limits := by
    simp only [nulFree, assignment, String.toList_append, List.mem_append, nul_mem_substituteLimits_iff]

/-- A string without a NUL has a C form, with the same text. -/
theorem CString.new_map_text (s : String) : (CString.new s).map CString.text = if nulFree s then some s else none := by
  by_cases h : Char.ofNat 0 ∈ s.toList <;> simp [CString.new, nulFree, h]

/-- Two C strings with one text are equal. -/
theorem CString.text_injective : Function.Injective CString.text := by
  rintro ⟨text, _⟩ ⟨text', _⟩ h
  cases h
  rfl

variable {E : Type*} {text : E → ResourceLimits → String} {template : E → String} {free : E → Prop}

/-- The texts of a vector of C strings. -/
theorem Templated.cstrings_text (h : Templated text template free) (entries : List E) (limits : ResourceLimits) :
    (entries.filterMap fun e => CString.new (text e limits)).map CString.text =
      (entries.filter fun e => nulFree (template e)).map (text · limits) := by
  rw [List.map_filterMap, ← List.filterMap_eq_map, ← List.filterMap_eq_filter, List.filterMap_filterMap]
  apply List.filterMap_congr
  intro e _
  rw [CString.new_map_text, h.nul]
  by_cases hfree : nulFree (template e) = true <;> simp [hfree, Option.guard]

/-- Two vectors are equal under all limits exactly when their templates are and no limit occurs
in them. -/
theorem Templated.cstrings_eq_iff (h : Templated text template free) (xs ys : List E) :
    (∀ limits limits', (xs.filterMap fun e => CString.new (text e limits)) =
        ys.filterMap fun e => CString.new (text e limits')) ↔
      (xs.filter fun e => nulFree (template e)).map template = (ys.filter fun e => nulFree (template e)).map template ∧
        (∀ e ∈ xs.filter fun e => nulFree (template e), free e) ∧
        ∀ e ∈ ys.filter fun e => nulFree (template e), free e := by
  have htext : ∀ limits limits', ((xs.filterMap fun e => CString.new (text e limits)) =
      ys.filterMap fun e => CString.new (text e limits')) ↔
      (xs.filter fun e => nulFree (template e)).map (text · limits) =
        (ys.filter fun e => nulFree (template e)).map (text · limits') := by
    intro limits limits'
    rw [← h.cstrings_text, ← h.cstrings_text, (List.map_injective_iff.mpr CString.text_injective).eq_iff]
  simp only [htext]
  have hkept : ∀ es : List E, (∀ e ∈ es, free e) → ∀ limits, es.map (text · limits) = es.map template := by
    intro es hfree limits
    exact List.map_congr_left fun e he => h.kept e (hfree e he) limits
  constructor
  · intro hsame
    have hx : ∀ e ∈ xs.filter fun e => nulFree (template e), free e := fun e he =>
      h.tells e (List.map_inj_left.mp ((hsame smallLimits smallLimits).trans (hsame largeLimits smallLimits).symm) e he)
    have hy : ∀ e ∈ ys.filter fun e => nulFree (template e), free e := fun e he =>
      h.tells e (List.map_inj_left.mp ((hsame smallLimits smallLimits).symm.trans (hsame smallLimits largeLimits)) e he)
    refine ⟨?_, hx, hy⟩
    rw [← hkept _ hx smallLimits, ← hkept _ hy smallLimits]
    exact hsame smallLimits smallLimits
  · rintro ⟨hsame, hx, hy⟩ limits limits'
    rw [hkept _ hx, hkept _ hy, hsame]

instance : Nonempty ResourceLimits := ⟨.default⟩

/-- A specification has no compile command at all, or one vector of C strings for all limits. -/
theorem compileArgv_cases (spec : LanguageSpec) :
    (compileTemplate spec = none ∧ ∀ limits, buildCompileArgv spec limits = none) ∨
      ∃ cmd : List String, compileTemplate spec = some (cmd.filter nulFree) ∧ ∀ limits,
        buildCompileArgv spec limits = some (cmd.filterMap fun s => CString.new (substituteLimits s limits)) := by
  cases hcmd : spec.compileCmd with
  | none => exact Or.inl ⟨by simp [compileTemplate, hcmd], fun _ => by simp [buildCompileArgv, hcmd]⟩
  | some cmd =>
    cases cmd with
    | nil => exact Or.inl ⟨by simp [compileTemplate, hcmd], fun _ => by simp [buildCompileArgv, hcmd]⟩
    | cons first rest =>
      exact Or.inr ⟨first :: rest, by simp [compileTemplate, hcmd], fun _ => by simp [buildCompileArgv, hcmd]⟩

/-- The compile commands agree under all limits exactly when their templates do and no limit
occurs in them. -/
theorem buildCompileArgv_eq_iff (a b : LanguageSpec) :
    (∀ limits limits', buildCompileArgv a limits = buildCompileArgv b limits') ↔
      compileTemplate a = compileTemplate b ∧
        (∀ cmd, compileTemplate a = some cmd → ∀ s ∈ cmd, ¬ MentionsLimit s) ∧
        ∀ cmd, compileTemplate b = some cmd → ∀ s ∈ cmd, ¬ MentionsLimit s := by
  rcases compileArgv_cases a with ⟨ha, hnone⟩ | ⟨cmd, ha, hsome⟩
  · rcases compileArgv_cases b with ⟨hb, hnone'⟩ | ⟨cmd', hb, hsome'⟩
    · simp [ha, hnone, hb, hnone']
    · simp [ha, hnone, hb, hsome']
  · rcases compileArgv_cases b with ⟨hb, hnone'⟩ | ⟨cmd', hb, hsome'⟩
    · simp [ha, hsome, hb, hnone']
    · simpa [ha, hsome, hb, hsome'] using templated_command.cstrings_eq_iff cmd cmd'

/-- The environments agree under all limits exactly when their templates do and no limit occurs
in them. -/
theorem buildEnv_eq_iff (a b : LanguageSpec) :
    (∀ limits limits', buildEnv a limits = buildEnv b limits') ↔
      (envTemplate a).map assignment = (envTemplate b).map assignment ∧
        (∀ entry ∈ envTemplate a, ¬ MentionsLimit entry.2) ∧ ∀ entry ∈ envTemplate b, ¬ MentionsLimit entry.2 := by
  simp only [buildEnv, List.append_cancel_left_eq]
  exact templated_assignment.cstrings_eq_iff a.env b.env

/-- Two specifications compile alike under all limits exactly when their templates are the same
and free of limits. -/
theorem compilesAlike_iff (a b : LanguageSpec) :
    CompilesAlike a b ↔ (∀ limits limits', buildCompileArgv a limits = buildCompileArgv b limits') ∧
      ∀ limits limits', buildEnv a limits = buildEnv b limits' := by
  rw [buildCompileArgv_eq_iff, buildEnv_eq_iff]
  constructor
  · rintro ⟨hargv, henv, hfirst, hsecond⟩
    exact ⟨⟨hargv, hfirst.argv, hsecond.argv⟩, henv, hfirst.env, hsecond.env⟩
  · rintro ⟨⟨hargv, ha, hb⟩, henv, ha', hb'⟩
    exact ⟨hargv, henv, ⟨ha, ha'⟩, hb, hb'⟩

/-- A key stands for one compilation exactly when the two specifications never share a key, or
compile alike whatever the limits. -/
theorem sharesOnlySameCompilations_iff {Digest : Type*} (blake3 : Bytes → Digest)
    (collisionFree : Function.Injective blake3) {a b : LanguageSpec} (ha : a.id < 2 ^ 32) (hb : b.id < 2 ^ 32) :
    SharesOnlySameCompilations blake3 a b ↔
      a.compileCmd = none ∨ b.compileCmd = none ∨ a.id ≠ b.id ∨ CompilesAlike a b := by
  rw [compilesAlike_iff]
  constructor
  · intro h
    by_contra hnot
    simp only [not_or, not_not] at hnot
    obtain ⟨hcmd, hcmd', hid, hdiffer⟩ := hnot
    have hsame : ∀ limits limits', (buildCompileArgv a limits, buildEnv a limits) =
        (buildCompileArgv b limits', buildEnv b limits') := by
      intro limits limits'
      refine h ⟨0, a, [], [], limits, none⟩ ⟨0, b, [], [], limits', none⟩ rfl rfl
        (CacheKey.compile blake3 a.id [] []) ?_ ?_
      · simp [compileKey, Option.isSome_iff_ne_none.mpr hcmd]
      · simp [compileKey, Option.isSome_iff_ne_none.mpr hcmd', hid]
    exact hdiffer ⟨fun limits limits' => congrArg Prod.fst (hsame limits limits'),
      fun limits limits' => congrArg Prod.snd (hsame limits limits')⟩
  · rintro h job job' rfl rfl key hkey hkey'
    have hsome : job.language.compileCmd.isSome = true ∧
        CacheKey.compile blake3 job.language.id job.sourceCode [] = key := by simpa [compileKey] using hkey
    have hsome' : job'.language.compileCmd.isSome = true ∧
        CacheKey.compile blake3 job'.language.id job'.sourceCode [] = key := by simpa [compileKey] using hkey'
    have hinput := (compileKeyInput_inj ha hb).mp (collisionFree (hsome.2.trans hsome'.2.symm))
    rcases h with hnone | hnone | hid | ⟨hargv, henv⟩
    · simp [hnone] at hsome
    · simp [hnone] at hsome'
    · exact absurd hinput.1 hid
    · rw [compileInvocation, compileInvocation, hargv job.limits job'.limits, henv job.limits job'.limits]

/-- A C++ specification with the given optimisation flag. -/
def cpp (optimisation : String) : LanguageSpec where
  id := 52
  sourceFile := "main.cpp"
  compileCmd := some ["/usr/bin/g++-14", optimisation, "-pipe", "-std=c++23", "main.cpp", "-o", "prog", "-lm"]
  runCmd := ["./prog"]
  env := []
  defaultLimits := none
  compileLimits := none

/-- A specification without placeholders that does not change shares its key soundly. -/
theorem sharesOnlySameCompilations_iff_unchanged :
    SharesOnlySameCompilations (fun input : Bytes => input) (cpp "-O0") (cpp "-O0") := by
  have hfree : LimitFree (cpp "-O0") := by
    refine ⟨?_, by decide⟩
    intro cmd hcmd
    have hsame : compileTemplate (cpp "-O0") = some (cpp "-O0").compileCmd.get! := by decide +kernel
    cases hcmd.symm.trans hsame
    decide +kernel
  exact (sharesOnlySameCompilations_iff _ Function.injective_id (by decide) (by decide)).mpr
    (Or.inr (Or.inr (Or.inr ⟨rfl, rfl, hfree, hfree⟩)))

/-- A changed optimisation flag keeps the key. -/
theorem changedFlag_sharesKey :
    ¬ ∀ (blake3 : Bytes → Bytes) (a b : LanguageSpec), Function.Injective blake3 → a.id < 2 ^ 32 → b.id < 2 ^ 32 →
      SharesOnlySameCompilations blake3 a b := by
  intro h
  have hshares := h id (cpp "-O0") (cpp "-O2") Function.injective_id (by decide) (by decide)
  have hsame := hshares ⟨0, cpp "-O0", [], [], .default, none⟩ ⟨0, cpp "-O2", [], [], .default, none⟩ rfl rfl _ rfl rfl
  revert hsame
  decide +kernel

end ZeroCode.Cache
