import ZeroCode.Api.Create

/-!
# Batches against single submissions

The two handlers decode and check their requests by code of their own. Nothing but the
number of test cases and the wording of the errors tells them apart: a batch passes when
each of its test cases would pass alone, and what is inserted for a test case is what the
request for it alone would insert.
-/

namespace ZeroCode.Api

open ZeroCode.Core ZeroCode.Foundation ZeroCode.Worker

/-- The request for one test case of a batch alone. -/
def BatchRequest.alone (req : BatchRequest) (stdin : Option Bytes) : SubmissionRequest where
  languageId := req.languageId
  sourceCode := req.sourceCode
  stdin := stdin
  cpuTimeLimit := req.cpuTimeLimit
  wallTimeLimit := req.wallTimeLimit
  memoryLimitMb := req.memoryLimitMb
  callbackUrl := none
  base64Encoded := req.base64Encoded

/-- The limits of a batch, as its handler computes them. -/
def BatchRequest.resolveLimits (req : BatchRequest) (spec : LanguageSpec) (ceiling : ResourceLimits) :
    Except CreateError ResourceLimits :=
  let lim := spec.defaultLimits.getD .default
  let lim := match req.cpuTimeLimit with
    | some v => { lim with cpuTime := v }
    | none => lim
  let lim := match req.wallTimeLimit with
    | some v => { lim with wallTime := v }
    | none => lim
  let lim := match req.memoryLimitMb with
    | some v => { lim with memoryMb := v }
    | none => lim
  match lim.validate ceiling with
  | .ok () => .ok lim
  | .error e => .error (.invalidLimits e)

/-- Two submissions run the same program on the same input under the same limits. -/
structure SameJob (a b : NewSubmission) : Prop where
  languageId : a.languageId = b.languageId
  sourceCode : a.sourceCode = b.sourceCode
  stdin : a.stdin = b.stdin
  limits : a.limits = b.limits

/-- What a decoded payload is does not depend on its name. -/
theorem AppState.decodePayload_eq_ok_iff {api : AppState} {base64Encoded : Bool} {field : String} {raw bytes : Bytes} :
    api.decodePayload base64Encoded field raw = .ok bytes ↔
      if base64Encoded then isUtf8 raw = true ∧ api.fromBase64 raw = .ok bytes else raw = bytes := by
  unfold AppState.decodePayload
  cases base64Encoded with
  | false => simp
  | true =>
    cases hutf : isUtf8 raw with
    | false => simp
    | true =>
      cases hdecoded : api.fromBase64 raw <;> simp

/-- What a decoded optional payload is does not depend on its name. -/
theorem AppState.decodeOptional_eq_ok_iff {api : AppState} {base64Encoded : Bool} {field field' : String}
    {raw bytes : Option Bytes} :
    api.decodeOptional base64Encoded field raw = .ok bytes ↔ api.decodeOptional base64Encoded field' raw = .ok bytes := by
  have hname (name : String) (raw : Bytes) : api.decodeOptional base64Encoded name (some raw) = .ok bytes ↔
      ∃ decoded, api.decodePayload base64Encoded name raw = .ok decoded ∧ some decoded = bytes := by
    rw [AppState.decodeOptional]
    cases api.decodePayload base64Encoded name raw <;> simp [Except.map]
  cases raw with
  | none => exact Iff.rfl
  | some raw =>
    rw [hname field, hname field']
    simp only [AppState.decodePayload_eq_ok_iff]

/-- Test cases are decoded like the inputs of single submissions. -/
theorem AppState.decodeTestCases_eq_ok_iff {api : AppState} {base64Encoded : Bool} {posted decoded : List (Option Bytes)} :
    api.decodeTestCases base64Encoded posted = .ok decoded ↔
      List.Forall₂ (fun raw bytes => api.decodeOptional base64Encoded "stdin" raw = .ok bytes) posted decoded := by
  rw [AppState.decodeTestCases, mapM_eq_ok_iff]
  have hnames (case : Option Bytes × ℕ) (bytes : Option Bytes) :
      api.decodeOptional base64Encoded (testCaseField case.2) case.1 = .ok bytes ↔
        api.decodeOptional base64Encoded "stdin" case.1 = .ok bytes := AppState.decodeOptional_eq_ok_iff
  have hfirst : List.Forall₂ (fun raw bytes => api.decodeOptional base64Encoded "stdin" raw = .ok bytes)
      (posted.zipIdx.map Prod.fst) decoded ↔
        List.Forall₂ (fun case bytes => api.decodeOptional base64Encoded "stdin" (Prod.fst case) = .ok bytes)
          posted.zipIdx decoded := by
    rw [List.forall₂_map_left_iff]
  rw [List.zipIdx_map_fst] at hfirst
  simp only [hnames, hfirst]

/-- The language, the source and the input of a checked request fit their widths. -/
theorem SubmissionRequest.fits_of_prepare {posted req : SubmissionRequest} {api : AppState} {limits : ResourceLimits}
    (hids : ∀ spec ∈ api.languages, spec.id < 2 ^ 32) (h : posted.prepare api = .ok (req, limits)) :
    req.languageId < 2 ^ 32 ∧ req.sourceCode.length < 2 ^ 64 ∧ ∀ stdin, req.stdin = some stdin →
      stdin.length < 2 ^ 64 := by
  obtain ⟨source, stdin, spec, _, _, hsource, hstdin, hspec, _, rfl⟩ := SubmissionRequest.prepare_eq_ok_iff.mp h
  have hid : posted.languageId < 2 ^ 32 := by
    unfold AppState.require at hspec
    split at hspec
    · rename_i found hfound
      have hsame : found.id = posted.languageId := by simpa using List.find?_some hfound
      rw [← hsame]
      exact hids found (List.mem_of_find?_eq_some hfound)
    · cases hspec
  have hsized {payload : Bytes} {limit : ℕ} (hsize : checkSize payload limit = .ok ()) : payload.length ≤ limit := by
    unfold checkSize at hsize
    split at hsize
    · cases hsize
    · omega
  refine ⟨hid, ?_, fun bytes hbytes => ?_⟩
  · unfold checkSource at hsource
    split at hsource
    · cases hsource
    · exact (hsized hsource).trans_lt (by norm_num [maxSourceBytes])
  · cases hbytes
    exact (hsized hstdin).trans_lt (by norm_num [maxStdinBytes])

/-- A batch computes its limits the way a single submission does, and words the error in its own way. -/
theorem BatchRequest.resolveLimits_eq (req : BatchRequest) (api : AppState) (spec : LanguageSpec) :
    (api.resolveLimits spec req.cpuTimeLimit req.wallTimeLimit req.memoryLimitMb).mapError .asValidation =
      req.resolveLimits spec api.limitCeiling := by
  have hrenamed (limits : ResourceLimits) :
      (match limits.validate api.limitCeiling with
        | .ok () => .ok limits
        | .error e => .error (.limitOutOfRange e) : Except CreateError ResourceLimits).mapError CreateError.asValidation =
      match limits.validate api.limitCeiling with
        | .ok () => .ok limits
        | .error e => .error (.invalidLimits e) := by
    cases limits.validate api.limitCeiling <;> rfl
  unfold AppState.resolveLimits BatchRequest.resolveLimits
  cases req.cpuTimeLimit <;> cases req.wallTimeLimit <;> cases req.memoryLimitMb <;> exact hrenamed _

/-- What it takes to pass as a batch. -/
theorem BatchRequest.prepare_eq_ok_iff {posted checked : BatchRequest} {api : AppState} {limits : ResourceLimits} :
    posted.prepare api = .ok (checked, limits) ↔
      ∃ source testCases spec, api.decodePayload posted.base64Encoded "source_code" posted.sourceCode = .ok source ∧
        api.decodeTestCases posted.base64Encoded posted.testCases = .ok testCases ∧ checkTestCases testCases = .ok () ∧
          checkSource source = .ok () ∧ (∀ stdin ∈ testCases, checkStdin stdin = .ok ()) ∧
            api.require posted.languageId = .ok spec ∧ posted.resolveLimits spec api.limitCeiling = .ok limits ∧
              checked = { posted with sourceCode := source, testCases := testCases } := by
  simp only [BatchRequest.prepare, BatchRequest.resolveLimits_eq, bind_eq_ok_iff]
  constructor
  · rintro ⟨source, hsource, testCases, hcases, _, hcount, _, hsize, _, hsizes, spec, hspec, limits', hlimits, hchecked⟩
    cases hchecked
    exact ⟨source, testCases, spec, hsource, hcases, hcount, hsize, forM_eq_ok_iff.mp hsizes, hspec, hlimits, rfl⟩
  · rintro ⟨source, testCases, spec, hsource, hcases, hcount, hsize, hsizes, hspec, hlimits, rfl⟩
    exact ⟨source, hsource, testCases, hcases, _, hcount, _, hsize, _, forM_eq_ok_iff.mpr hsizes, spec, hspec, limits,
      hlimits, rfl⟩

/-- A batch has from one to a hundred test cases. -/
theorem checkTestCases_eq_ok_iff {testCases : List (Option Bytes)} :
    checkTestCases testCases = .ok () ↔ 1 ≤ testCases.length ∧ testCases.length ≤ maxTestCases := by
  unfold checkTestCases
  cases testCases with
  | nil => simp
  | cons first rest => simp

/-- A test case that was decoded with its batch passes alone, with the limits of the batch. -/
theorem BatchRequest.alone_of_prepare {posted checked : BatchRequest} {api : AppState} {limits : ResourceLimits}
    (h : posted.prepare api = .ok (checked, limits)) :
    List.Forall₂ (fun raw stdin => (posted.alone raw).prepare api =
      .ok ({ posted.alone raw with sourceCode := checked.sourceCode, stdin := stdin }, limits))
      posted.testCases checked.testCases := by
  obtain ⟨source, testCases, spec, hsource, hcases, _, hsize, hsizes, hspec, hlimits, rfl⟩ :=
    BatchRequest.prepare_eq_ok_iff.mp h
  have hdecoded := AppState.decodeTestCases_eq_ok_iff.mp hcases
  rw [← BatchRequest.resolveLimits_eq, mapError_eq_ok_iff] at hlimits
  refine List.forall₂_iff_zip.mpr ⟨hdecoded.length_eq, fun {raw stdin} hpair => ?_⟩
  have hstdin : stdin ∈ testCases := (List.of_mem_zip hpair).2
  exact SubmissionRequest.prepare_eq_ok_iff.mpr
    ⟨source, stdin, spec, hsource, List.forall₂_zip hdecoded hpair, hsize, hsizes stdin hstdin, hspec, hlimits, rfl⟩

/-- If every test case passes alone, the batch passes. -/
theorem BatchRequest.prepare_of_alone {posted : BatchRequest} {api : AppState} (hpos : 1 ≤ posted.testCases.length)
    (hmax : posted.testCases.length ≤ maxTestCases)
    (h : ∀ raw ∈ posted.testCases, ∃ checked, (posted.alone raw).prepare api = .ok checked) :
    ∃ checked, posted.prepare api = .ok checked := by
  -- the source, the language and the limits are those of the first test case
  obtain ⟨first, hfirst⟩ := List.exists_mem_of_length_pos hpos
  obtain ⟨⟨checked, limits⟩, hchecked⟩ := h first hfirst
  obtain ⟨source, _, spec, hsource, _, hsize, _, hspec, hlimits, _⟩ := SubmissionRequest.prepare_eq_ok_iff.mp hchecked
  have hcases : ∀ raw ∈ posted.testCases, ∃ stdin,
      api.decodeOptional posted.base64Encoded "stdin" raw = .ok stdin ∧ checkStdin stdin = .ok () := by
    intro raw hraw
    obtain ⟨⟨checked', limits'⟩, hchecked'⟩ := h raw hraw
    obtain ⟨_, stdin, _, _, hstdin, _, hsize', _⟩ := SubmissionRequest.prepare_eq_ok_iff.mp hchecked'
    exact ⟨stdin, hstdin, hsize'⟩
  choose! decode hdecode using hcases
  have hdecoded : api.decodeTestCases posted.base64Encoded posted.testCases = .ok (posted.testCases.map decode) := by
    refine AppState.decodeTestCases_eq_ok_iff.mpr ?_
    rw [List.forall₂_map_right_iff, List.forall₂_same]
    exact fun raw hraw => (hdecode raw hraw).1
  refine ⟨(_, limits), BatchRequest.prepare_eq_ok_iff.mpr ⟨source, posted.testCases.map decode, spec, hsource, hdecoded, ?_, hsize,
    ?_, hspec, ?_, rfl⟩⟩
  · exact checkTestCases_eq_ok_iff.mpr (by rw [List.length_map]; exact ⟨hpos, hmax⟩)
  · intro stdin hstdin
    obtain ⟨raw, hraw, rfl⟩ := List.mem_map.mp hstdin
    exact (hdecode raw hraw).2
  · rw [← BatchRequest.resolveLimits_eq, mapError_eq_ok_iff]
    exact hlimits

/-- A batch of one to a hundred test cases passes its checks exactly when each test case passes those of a single
submission, and then what is inserted for a test case is what is inserted for it alone. -/
theorem batch_agrees_with_single (api : AppState) (posted : BatchRequest) (hpos : 1 ≤ posted.testCases.length)
    (hmax : posted.testCases.length ≤ maxTestCases) :
    ((∃ checked, posted.prepare api = .ok checked) ↔
        ∀ raw ∈ posted.testCases, ∃ checked, (posted.alone raw).prepare api = .ok checked) ∧
      ∀ batch limits, posted.prepare api = .ok (batch, limits) →
        List.Forall₂ (fun raw stdin => ∃ single limits', (posted.alone raw).prepare api = .ok (single, limits') ∧
          ∀ batchId token token' bodyHash, SameJob (batch.newSubmission limits batchId token stdin)
            (single.newSubmission limits' token' none bodyHash)) posted.testCases batch.testCases := by
  refine ⟨⟨?_, BatchRequest.prepare_of_alone hpos hmax⟩, ?_⟩
  · rintro ⟨⟨batch, limits⟩, hbatch⟩ raw hraw
    obtain ⟨i, hi, rfl⟩ := List.mem_iff_getElem.mp hraw
    have halone := BatchRequest.alone_of_prepare hbatch
    exact ⟨_, (List.forall₂_iff_get.mp halone).2 i hi (halone.length_eq ▸ hi)⟩
  · intro batch limits hbatch
    refine (BatchRequest.alone_of_prepare hbatch).imp fun raw stdin halone => ?_
    have hid : batch.languageId = posted.languageId := by
      obtain ⟨_, _, _, _, _, _, _, _, _, _, rfl⟩ := BatchRequest.prepare_eq_ok_iff.mp hbatch
      rfl
    exact ⟨_, limits, halone, fun batchId token token' bodyHash => ⟨hid, rfl, rfl, rfl⟩⟩

/-- A batch with an input and without one. -/
def mixedBatch : BatchRequest where
  languageId := 71
  sourceCode := [112, 97, 115, 115]
  testCases := [some [49], none]
  cpuTimeLimit := none
  wallTimeLimit := some 3
  memoryLimitMb := none
  base64Encoded := false

/-- The test case without an input passes alone. -/
theorem batch_agrees_with_single_mixedBatch :
    mixedBatch.testCases.length = 2 ∧ ∃ checked, (mixedBatch.alone none).prepare pythonState = .ok checked :=
  ⟨rfl, (batch_agrees_with_single pythonState mixedBatch (by decide) (by decide)).1.mp
    ⟨(mixedBatch, { ResourceLimits.default with wallTime := 3 }), by decide +kernel⟩ none (by decide)⟩

end ZeroCode.Api
