import ZeroCode.Foundation.Fallible
import ZeroCode.Worker.Rows

/-!
# Requests that create submissions

A request for one submission and a request for a batch are decoded and checked the same
way before anything is inserted: the payloads first, then the language and the limits. What
passes these checks becomes the row of one submission, or one row for each test case. The
base64 engine is a parameter.
-/

namespace ZeroCode.Api

open ZeroCode.Core ZeroCode.Foundation ZeroCode.Worker

/-- What the handlers know: the languages, the ceiling of the limits and the base64 engine, whose
error is its text. -/
structure AppState where
  languages : List LanguageSpec
  limitCeiling : ResourceLimits
  fromBase64 : Bytes → Except String Bytes

/-- Why a request is turned down before it touches the queue; `invalidLimits` is a validation error with
the text of the limit error. -/
inductive CreateError
  | validation (msg : String)
  | invalidLimits (e : LimitOutOfRange)
  | limitOutOfRange (e : LimitOutOfRange)
  | unknownLanguage (id : ℕ)
  deriving DecidableEq, Repr

/-- What a client posts for one submission. -/
structure SubmissionRequest where
  languageId : ℕ
  sourceCode : Bytes
  stdin : Option Bytes
  cpuTimeLimit : Option ℚ
  wallTimeLimit : Option ℚ
  memoryLimitMb : Option ℕ
  callbackUrl : Option String
  base64Encoded : Bool
  deriving DecidableEq, Repr

/-- What a client posts for a batch: one input for each test case. -/
structure BatchRequest where
  languageId : ℕ
  sourceCode : Bytes
  testCases : List (Option Bytes)
  cpuTimeLimit : Option ℚ
  wallTimeLimit : Option ℚ
  memoryLimitMb : Option ℕ
  base64Encoded : Bool
  deriving DecidableEq, Repr

/-- The largest source in bytes. -/
def maxSourceBytes : ℕ := 64 * 1024

/-- The largest input in bytes. -/
def maxStdinBytes : ℕ := 64 * 1024

/-- The most test cases of a batch. -/
def maxTestCases : ℕ := 100

/-- The bytes are UTF-8 text. -/
def isUtf8 (bytes : Bytes) : Bool := (ByteArray.mk bytes.toArray).validateUTF8

/-- Decode a payload, if it was sent in base64. -/
def AppState.decodePayload (api : AppState) (base64Encoded : Bool) (field : String) (raw : Bytes) :
    Except CreateError Bytes :=
  if !base64Encoded then .ok raw
  else if !isUtf8 raw then .error (.validation ("base64_encoded " ++ field ++ " must be a UTF-8 string"))
  else match api.fromBase64 raw with
    | .ok bytes => .ok bytes
    | .error e => .error (.validation (field ++ " base64 decode: " ++ e))

/-- Decode a payload that may be absent. -/
def AppState.decodeOptional (api : AppState) (base64Encoded : Bool) (field : String) :
    Option Bytes → Except CreateError (Option Bytes)
  | none => .ok none
  | some raw => (api.decodePayload base64Encoded field raw).map some

/-- Reject a payload above the limit. -/
def checkSize (payload : Bytes) (limit : ℕ) : Except CreateError Unit :=
  if limit < payload.length then
    .error (.validation
      ("payload too large: " ++ toString payload.length ++ " bytes (limit " ++ toString limit ++ ")"))
  else .ok ()

/-- Reject an empty source. -/
def checkSource (source : Bytes) : Except CreateError Unit :=
  if source.isEmpty then .error (.validation "source_code must be non-empty") else checkSize source maxSourceBytes

/-- Reject an input above the limit. -/
def checkStdin : Option Bytes → Except CreateError Unit
  | none => .ok ()
  | some stdin => checkSize stdin maxStdinBytes

/-- Look a language up. -/
def AppState.require (api : AppState) (id : ℕ) : Except CreateError LanguageSpec :=
  match api.languages.find? fun spec => spec.id == id with
  | some spec => .ok spec
  | none => .error (.unknownLanguage id)

/-- Apply the limits of the request to the defaults of the language, and check the ceiling. -/
def AppState.resolveLimits (api : AppState) (spec : LanguageSpec) (cpuTime wallTime : Option ℚ) (memoryMb : Option ℕ) :
    Except CreateError ResourceLimits :=
  let defaults := spec.defaultLimits.getD .default
  let limits :=
    { defaults with
      cpuTime := cpuTime.getD defaults.cpuTime
      wallTime := wallTime.getD defaults.wallTime
      memoryMb := memoryMb.getD defaults.memoryMb }
  match limits.validate api.limitCeiling with
  | .ok () => .ok limits
  | .error e => .error (.limitOutOfRange e)

/-- Decode and check a request for one submission. -/
def SubmissionRequest.prepare (req : SubmissionRequest) (api : AppState) :
    Except CreateError (SubmissionRequest × ResourceLimits) := do
  let source ← api.decodePayload req.base64Encoded "source_code" req.sourceCode
  let stdin ← api.decodeOptional req.base64Encoded "stdin" req.stdin
  checkSource source
  checkStdin stdin
  let spec ← api.require req.languageId
  let limits ← api.resolveLimits spec req.cpuTimeLimit req.wallTimeLimit req.memoryLimitMb
  .ok ({ req with sourceCode := source, stdin := stdin }, limits)

/-- The submission of a checked request. -/
def SubmissionRequest.newSubmission (req : SubmissionRequest) (limits : ResourceLimits) (token : Token)
    (idempotencyKey : Option String) (bodyHash : Bytes) : NewSubmission where
  token := token
  languageId := req.languageId
  sourceCode := req.sourceCode
  stdin := req.stdin
  limits := limits
  callbackUrl := req.callbackUrl
  idempotencyKey := idempotencyKey
  idempotencyHash := idempotencyKey.map fun _ => bodyHash
  batchId := none

/-- A batch reports a limit out of range as a validation error. -/
def CreateError.asValidation : CreateError → CreateError
  | .limitOutOfRange e => .invalidLimits e
  | e => e

/-- The name of the input of a test case in an error. -/
def testCaseField (i : ℕ) : String := "test_cases[" ++ toString i ++ "].stdin"

/-- Decode the inputs of the test cases. -/
def AppState.decodeTestCases (api : AppState) (base64Encoded : Bool) (testCases : List (Option Bytes)) :
    Except CreateError (List (Option Bytes)) :=
  testCases.zipIdx.mapM fun case => api.decodeOptional base64Encoded (testCaseField case.2) case.1

/-- Reject a batch without test cases or with too many. -/
def checkTestCases (testCases : List (Option Bytes)) : Except CreateError Unit :=
  if testCases.isEmpty then .error (.validation "test_cases must contain at least one entry")
  else if maxTestCases < testCases.length then
    .error (.validation
      ("test_cases cannot exceed " ++ toString maxTestCases ++ " entries (got " ++ toString testCases.length ++ ")"))
  else .ok ()

/-- Decode and check a request for a batch. -/
def BatchRequest.prepare (req : BatchRequest) (api : AppState) :
    Except CreateError (BatchRequest × ResourceLimits) := do
  let source ← api.decodePayload req.base64Encoded "source_code" req.sourceCode
  let testCases ← api.decodeTestCases req.base64Encoded req.testCases
  checkTestCases testCases
  checkSource source
  testCases.forM checkStdin
  let spec ← api.require req.languageId
  let limits ← (api.resolveLimits spec req.cpuTimeLimit req.wallTimeLimit req.memoryLimitMb).mapError .asValidation
  .ok ({ req with sourceCode := source, testCases := testCases }, limits)

/-- The submission of a test case of a checked batch. -/
def BatchRequest.newSubmission (req : BatchRequest) (limits : ResourceLimits) (batchId : String) (token : Token)
    (stdin : Option Bytes) : NewSubmission where
  token := token
  languageId := req.languageId
  sourceCode := req.sourceCode
  stdin := stdin
  limits := limits
  callbackUrl := none
  idempotencyKey := none
  idempotencyHash := none
  batchId := some batchId

/-- A handler inserts this submission for some request it has checked. -/
inductive Created (new : NewSubmission) : Prop
  | single (api : AppState) (posted req : SubmissionRequest) (limits : ResourceLimits) (key : Option String)
    (bodyHash : Bytes) (hchecked : posted.prepare api = .ok (req, limits))
    (hnew : new = req.newSubmission limits new.token key bodyHash)
  | batch (api : AppState) (posted req : BatchRequest) (limits : ResourceLimits) (batchId : String)
    (stdin : Option Bytes) (hcase : stdin ∈ req.testCases) (hchecked : posted.prepare api = .ok (req, limits))
    (hnew : new = req.newSubmission limits batchId new.token stdin)

/-- A source that passes the check is not empty. -/
theorem ne_nil_of_checkSource {source : Bytes} (h : checkSource source = .ok ()) : source ≠ [] := by
  unfold checkSource at h
  split at h
  · cases h
  · rename_i hsource
    simpa using hsource

/-- What it takes to pass as a single submission. -/
theorem SubmissionRequest.prepare_eq_ok_iff {posted checked : SubmissionRequest} {api : AppState}
    {limits : ResourceLimits} :
    posted.prepare api = .ok (checked, limits) ↔
      ∃ source stdin spec, api.decodePayload posted.base64Encoded "source_code" posted.sourceCode = .ok source ∧
        api.decodeOptional posted.base64Encoded "stdin" posted.stdin = .ok stdin ∧ checkSource source = .ok () ∧
          checkStdin stdin = .ok () ∧ api.require posted.languageId = .ok spec ∧
            api.resolveLimits spec posted.cpuTimeLimit posted.wallTimeLimit posted.memoryLimitMb = .ok limits ∧
              checked = { posted with sourceCode := source, stdin := stdin } := by
  simp only [SubmissionRequest.prepare, bind_eq_ok_iff]
  constructor
  · rintro ⟨source, hsource, stdin, hstdin, _, hsize, _, hsize', spec, hspec, limits', hlimits, hchecked⟩
    cases hchecked
    exact ⟨source, stdin, spec, hsource, hstdin, hsize, hsize', hspec, hlimits, rfl⟩
  · rintro ⟨source, stdin, spec, hsource, hstdin, hsize, hsize', hspec, hlimits, rfl⟩
    exact ⟨source, hsource, stdin, hstdin, _, hsize, _, hsize', spec, hspec, limits, hlimits, rfl⟩

/-- The source of a checked request is not empty. -/
theorem SubmissionRequest.source_of_prepare {posted req : SubmissionRequest} {api : AppState} {limits : ResourceLimits}
    (h : posted.prepare api = .ok (req, limits)) : req.sourceCode ≠ [] := by
  obtain ⟨source, _, _, _, _, hsource, _, _, _, rfl⟩ := SubmissionRequest.prepare_eq_ok_iff.mp h
  exact ne_nil_of_checkSource hsource

/-- The source of a checked batch is not empty. -/
theorem BatchRequest.source_of_prepare {posted req : BatchRequest} {api : AppState} {limits : ResourceLimits}
    (h : posted.prepare api = .ok (req, limits)) : req.sourceCode ≠ [] := by
  obtain ⟨source, _, h⟩ := bind_eq_ok_iff.mp h
  obtain ⟨testCases, _, h⟩ := bind_eq_ok_iff.mp h
  obtain ⟨_, _, h⟩ := bind_eq_ok_iff.mp h
  obtain ⟨_, hsource, h⟩ := bind_eq_ok_iff.mp h
  obtain ⟨_, _, h⟩ := bind_eq_ok_iff.mp h
  obtain ⟨spec, _, h⟩ := bind_eq_ok_iff.mp h
  obtain ⟨limits', _, h⟩ := bind_eq_ok_iff.mp h
  cases h
  exact ne_nil_of_checkSource hsource

/-- What a handler inserts has a source. -/
theorem Created.source_ne_nil {new : NewSubmission} (h : Created new) : new.sourceCode ≠ [] := by
  cases h with
  | single api posted req limits key bodyHash hchecked hnew =>
    rw [hnew]
    exact SubmissionRequest.source_of_prepare hchecked
  | batch api posted req limits batchId stdin hcase hchecked hnew =>
    rw [hnew]
    exact BatchRequest.source_of_prepare hchecked

/-- A service with one language. -/
def pythonState : AppState where
  languages := [⟨71, "main.py", none, ["python3", "main.py"], [], none, none⟩]
  limitCeiling := .default
  fromBase64 := fun _ => .error "invalid base64"

/-- A request with a source, an input and no limits of its own. -/
def pythonRequest : SubmissionRequest where
  languageId := 71
  sourceCode := [112, 97, 115, 115]
  stdin := some [49]
  cpuTimeLimit := none
  wallTimeLimit := none
  memoryLimitMb := none
  callbackUrl := none
  base64Encoded := false

/-- The service accepts that request. -/
theorem created_pythonRequest (token : Token) (key : Option String) (bodyHash : Bytes) :
    Created (pythonRequest.newSubmission .default token key bodyHash) := by
  refine .single pythonState pythonRequest pythonRequest .default key bodyHash ?_ rfl
  decide +kernel

end ZeroCode.Api
