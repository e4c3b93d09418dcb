import ZeroCode.Api.BatchSingle
import ZeroCode.Web.OutputText

/-!
# Texts between the client and the API

The client escapes a text into single bytes, writes them in padded base64 and marks the
request; the API strips the padding and reads the rest strictly. On the way back the API
writes base64 without padding, and the client asks for it, reads it as a browser does and
takes the bytes for UTF-8. Neither direction changes a text, of whatever characters and
length. An empty input is not sent at all, and a job without an input has an empty one.
-/

namespace ZeroCode.Web

open ZeroCode.Api ZeroCode.Core ZeroCode.Foundation ZeroCode.Worker

/-- Write base64, if every code unit is a byte. -/
def btoa (units : List ℕ) : Option String :=
  if units.all (· < 256) then
    let bytes := units.map UInt8.ofNat
    some (String.ofList (Base64.encode bytes ++ Base64.padding bytes))
  else none

/-- Encode a text that may be missing. -/
def encode (str : Option String) : Option String := btoa (unescape (encodeURIComponent (str.getD "")).toList)

/-- What the client submits. -/
structure SubmitParams where
  languageId : ℕ
  sourceCode : String
  stdin : Option String
  cpuTime : Option ℚ
  wallTime : Option ℚ
  memoryMb : Option ℕ
  callbackUrl : Option String

/-- A field that is only sent if it is a text that is not empty. -/
def truthy (field : Option String) : Option String := field.filter fun s => s != ""

/-- The request that the client posts. -/
def submit (params : SubmitParams) : Option SubmissionRequest := do
  let source ← encode (some params.sourceCode)
  let stdin ← (truthy params.stdin).mapM fun s => encode (some s)
  some
    { languageId := params.languageId
      sourceCode := utf8Bytes source
      stdin := stdin.map utf8Bytes
      cpuTimeLimit := params.cpuTime
      wallTimeLimit := params.wallTime
      memoryLimitMb := params.memoryMb
      callbackUrl := truthy params.callbackUrl
      base64Encoded := true }

/-- The same request with its texts as they are. -/
def SubmitParams.unencoded (params : SubmitParams) : SubmissionRequest where
  languageId := params.languageId
  sourceCode := utf8Bytes params.sourceCode
  stdin := (truthy params.stdin).map utf8Bytes
  cpuTimeLimit := params.cpuTime
  wallTimeLimit := params.wallTime
  memoryLimitMb := params.memoryMb
  callbackUrl := truthy params.callbackUrl
  base64Encoded := false

/-- The client has every output of the row that is a text. -/
structure ReadsOutputs (r : Row) (view : SubmissionView String) : Prop where
  stdout : ∀ text, r.stdout = some (utf8Bytes text) → outputText view.stdout = text
  stderr : ∀ text, r.stderr = some (utf8Bytes text) → outputText view.stderr = text
  compileOutput : ∀ text, r.compileOutput = some (utf8Bytes text) → outputText view.compileOutput = text

/-- A text that is not sent is empty or missing. -/
theorem getD_truthy (field : Option String) : (truthy field).getD "" = field.getD "" := by
  cases field with
  | none => rfl
  | some s =>
    by_cases hempty : s = ""
    · subst hempty
      rfl
    · have hkept : truthy (some s) = some s := by simp [truthy, hempty]
      rw [hkept]

section Codec

variable (engine : NoPadEngine)

/-- A submission as it is sent to a client that asked for base64. -/
def SubmissionView.base64 (s : Submission) : SubmissionView String :=
  SubmissionView.of (fun bytes => Payload.toBase64 engine ⟨bytes⟩) s

/-- The engine writes what the standard says, and reads what a strict reader reads. -/
structure NoPadEngine.Standard : Prop where
  encode_eq : ∀ bytes, engine.encode bytes = String.ofList (Base64.encode bytes)
  decode_eq : ∀ text bytes, Base64.decode true text.toList = some bytes → engine.decode text = .ok bytes

variable {engine}

/-- Such an engine reads what it wrote, and writes no padding. -/
theorem NoPadEngine.Standard.correct (hengine : NoPadEngine.Standard engine) : engine.Correct where
  decodes bytes := by
    refine hengine.decode_eq _ _ ?_
    rw [hengine.encode_eq, String.toList_ofList, Base64.decode_encode]
  unpadded bytes := by
    rw [hengine.encode_eq, String.toList_ofList]
    exact Base64.padding_not_mem_encode bytes

/-- Every text is encoded, as its bytes in padded base64. -/
theorem encode_eq (s : String) :
    encode (some s) = some (String.ofList (Base64.encode (utf8Bytes s) ++ Base64.padding (utf8Bytes s))) := by
  have hbytes : ((utf8Bytes s).map UInt8.toNat).map UInt8.ofNat = utf8Bytes s := by
    rw [List.map_map]
    exact List.map_id'' (fun b => UInt8.ofNat_toNat) _
  have hsmall : ((utf8Bytes s).map UInt8.toNat).all (· < 256) = true := by
    refine List.all_eq_true.mpr fun n hn => ?_
    obtain ⟨b, _, rfl⟩ := List.mem_map.mp hn
    exact decide_eq_true b.toNat_lt
  rw [encode, Option.getD_some, unescape_encodeURIComponent, btoa, if_pos hsmall, hbytes]

/-- In the words of the engine, the client encodes as the API does, and pads the result. -/
theorem encode_eq_toBase64 (hengine : NoPadEngine.Standard engine) (s : String) :
    ∃ n, encode (some s) =
      some (Payload.toBase64 engine ⟨utf8Bytes s⟩ ++ String.ofList (List.replicate n '=')) := by
  refine ⟨(3 - (utf8Bytes s).length % 3) % 3, ?_⟩
  rw [encode_eq, Payload.toBase64, hengine.encode_eq, ← String.ofList_append]
  rfl

/-- What the API encodes is read by the client. -/
theorem decode_toBase64 (hengine : NoPadEngine.Standard engine) (s : String) :
    decode (Payload.toBase64 engine ⟨utf8Bytes s⟩) = s := by
  have hread : atob (Payload.toBase64 engine ⟨utf8Bytes s⟩) = some (utf8Bytes s) := by
    rw [atob, Payload.toBase64, hengine.encode_eq, String.toList_ofList, Base64.forgiving_encode]
  rw [decode_eq, hread, Option.bind_some, utf8Text_utf8Bytes, Option.getD_some]

/-- A payload that the client encoded is decoded for the request. -/
theorem decodePayload_encode (hengine : NoPadEngine.Standard engine) (s : String) :
    ∃ text, encode (some s) = some text ∧ ∀ (api : AppState) (field : String),
      (api.withEngine engine).decodePayload true field (utf8Bytes text) = .ok (utf8Bytes s) := by
  obtain ⟨n, htext⟩ := encode_eq_toBase64 hengine s
  exact ⟨_, htext, fun api field => decodePayload_toBase64 hengine.correct api field ⟨utf8Bytes s⟩ n⟩

/-- An input that the client encoded is decoded for the request, and one that it left out is missing. -/
theorem decodeOptional_encode (hengine : NoPadEngine.Standard engine) (input : Option String) :
    ∃ text, (input.mapM fun s => encode (some s)) = some text ∧ ∀ (api : AppState) (field : String),
      (api.withEngine engine).decodeOptional true field (text.map utf8Bytes) = .ok (input.map utf8Bytes) := by
  cases input with
  | none => exact ⟨none, rfl, fun _ _ => rfl⟩
  | some s =>
    obtain ⟨text, htext, hread⟩ := decodePayload_encode hengine s
    refine ⟨some text, by rw [Option.mapM_some, htext]; rfl, fun api field => ?_⟩
    rw [Option.map_some, AppState.decodeOptional, hread]
    rfl

/-- A request in base64 whose payloads are decoded is decided as the request that holds them as they are. -/
theorem prepare_of_decoded {api : AppState} {posted : SubmissionRequest} {source : Bytes} {stdin : Option Bytes}
    (hposted : posted.base64Encoded = true)
    (hsource : (api.withEngine engine).decodePayload true "source_code" posted.sourceCode = .ok source)
    (hstdin : (api.withEngine engine).decodeOptional true "stdin" posted.stdin = .ok stdin) :
    posted.prepare (api.withEngine engine) =
      (({ posted with sourceCode := source, stdin := stdin, base64Encoded := false } : SubmissionRequest).prepare
        api).map fun checked => ({ checked.1 with base64Encoded := true }, checked.2) := by
  have hplain : api.decodeOptional false "stdin" stdin = .ok stdin := by
    cases stdin <;> rfl
  have hpayload : api.decodePayload false "source_code" source = .ok source := rfl
  have hlanguage : (api.withEngine engine).require posted.languageId = api.require posted.languageId := rfl
  have hlimits (spec : LanguageSpec) : (api.withEngine engine).resolveLimits spec posted.cpuTimeLimit
      posted.wallTimeLimit posted.memoryLimitMb = api.resolveLimits spec posted.cpuTimeLimit posted.wallTimeLimit
      posted.memoryLimitMb := rfl
  rw [SubmissionRequest.prepare, SubmissionRequest.prepare, hposted, hsource, hstdin, hpayload, hplain]
  -- from here on the two run the same checks on the same values
  simp only [bind, Except.bind, hlanguage, hlimits]
  cases checkSource source with
  | error e => rfl
  | ok _ =>
    cases checkStdin stdin with
    | error e => rfl
    | ok _ =>
      cases api.require posted.languageId with
      | error e => rfl
      | ok spec =>
        dsimp only
        cases api.resolveLimits spec posted.cpuTimeLimit posted.wallTimeLimit posted.memoryLimitMb with
        | error e => rfl
        | ok limits => rfl

/-- A posted request is decided as the same request with its texts as they are. -/
theorem prepare_submit (hengine : NoPadEngine.Standard engine) (params : SubmitParams) :
    ∃ posted, submit params = some posted ∧ ∀ api : AppState, posted.prepare (api.withEngine engine) =
      (params.unencoded.prepare api).map fun checked => ({ checked.1 with base64Encoded := true }, checked.2) := by
  obtain ⟨source, hsource, hread⟩ := decodePayload_encode hengine params.sourceCode
  obtain ⟨input, hinput, hdecoded⟩ := decodeOptional_encode hengine (truthy params.stdin)
  refine ⟨_, by rw [submit, hsource, Option.bind_eq_bind, Option.bind_some, hinput]; rfl, fun api => ?_⟩
  exact prepare_of_decoded rfl (hread api "source_code") (hdecoded api "stdin")

/-- A job of a submitted request has the texts, and an empty input if there was none. -/
theorem job_of_submit (hengine : NoPadEngine.Standard engine) {params : SubmitParams} {posted req : SubmissionRequest}
    {api : AppState} {limits : ResourceLimits} (hposted : submit params = some posted)
    (h : posted.prepare (api.withEngine engine) = .ok (req, limits)) (token : Token) (key : Option String)
    (bodyHash : Bytes) (now : ℚ) :
    ((req.newSubmission limits token key bodyHash).row now).claimedJob.sourceCode = utf8Bytes params.sourceCode ∧
      ((req.newSubmission limits token key bodyHash).row now).claimedJob.stdin =
        utf8Bytes (params.stdin.getD "") := by
  obtain ⟨posted', hposted', hprepare⟩ := prepare_submit hengine params
  cases hposted.symm.trans hposted'
  rw [hprepare] at h
  obtain ⟨⟨plain, limits'⟩, hplain, hchecked⟩ := map_eq_ok_iff.mp h
  cases hchecked
  obtain ⟨source, stdin, _, hsource, hstdin, _, _, _, _, rfl⟩ := SubmissionRequest.prepare_eq_ok_iff.mp hplain
  cases hsource
  refine ⟨rfl, ?_⟩
  rw [← getD_truthy params.stdin]
  cases hinput : truthy params.stdin with
  | none =>
    rw [SubmitParams.unencoded, hinput] at hstdin
    cases hstdin
    rfl
  | some s =>
    rw [SubmitParams.unencoded, hinput] at hstdin
    cases hstdin
    rfl

/-- What the API sends of the outputs of a row in base64 is read by the client. -/
theorem readsOutputs_base64 (hengine : NoPadEngine.Standard engine) {r : Row} {s : Submission}
    (h : readRow r = .ok s) : ReadsOutputs r (SubmissionView.base64 engine s) := by
  obtain ⟨hout, herr, hcompile⟩ := outputs_of_readRow h
  have hread {output : Option Bytes} (text : String) (houtput : output = some (utf8Bytes text)) :
      outputText (output.map fun bytes => Payload.toBase64 engine ⟨bytes⟩) = text := by
    rw [houtput, Option.map_some, outputText, Option.map_some, Option.getD_some, decode_toBase64 hengine]
  exact ⟨fun text hr => hread text (hout.trans hr), fun text hr => hread text (herr.trans hr),
    fun text hr => hread text (hcompile.trans hr)⟩

/-- With an engine after the standard, for every text, request and row: the API decodes what the client encoded to
the bytes of the text; the client decodes what the API encoded to the text of the bytes; a submission is decided as if
it held its texts as they are, and its job has them; and the client has the outputs of a row that are texts. -/
theorem texts_unaltered (hengine : NoPadEngine.Standard engine) :
    (∀ s, ∃ text, encode (some s) = some text ∧ Payload.fromBase64 engine text = .ok ⟨utf8Bytes s⟩) ∧
      (∀ bytes s, utf8Text? bytes = some s → decode (Payload.toBase64 engine ⟨bytes⟩) = s) ∧
        (∀ params, ∃ posted, submit params = some posted ∧ ∀ api : AppState,
          posted.prepare (api.withEngine engine) = ((params.unencoded.prepare api).map fun checked =>
            ({ checked.1 with base64Encoded := true }, checked.2)) ∧
            ∀ req limits, posted.prepare (api.withEngine engine) = .ok (req, limits) →
              ∀ token key bodyHash now,
                let job := ((req.newSubmission limits token key bodyHash).row now).claimedJob
                job.sourceCode = utf8Bytes params.sourceCode ∧ job.stdin = utf8Bytes (params.stdin.getD "")) ∧
          ∀ rows token r s, (rows.find? fun r => r.token == token) = some r →
            fetchSubmission rows token = .ok (some s) → ReadsOutputs r (SubmissionView.base64 engine s) := by
  refine ⟨fun s => ?_, fun bytes s hs => ?_, fun params => ?_, fun rows token r s hr hs => ?_⟩
  · obtain ⟨n, htext⟩ := encode_eq_toBase64 hengine s
    exact ⟨_, htext, Payload.fromBase64_toBase64 hengine.correct ⟨utf8Bytes s⟩ n⟩
  · rw [utf8Text_eq_some_iff.mp hs]
    exact decode_toBase64 hengine s
  · obtain ⟨posted, hposted, hprepare⟩ := prepare_submit hengine params
    refine ⟨posted, hposted, fun api => ⟨hprepare api, fun req limits h token key bodyHash now => ?_⟩⟩
    exact job_of_submit hengine hposted h token key bodyHash now
  · rw [fetchSubmission_eq, hr] at hs
    obtain ⟨s', hread, heq⟩ := map_eq_ok_iff.mp hs
    cases heq
    exact readsOutputs_base64 hengine hread

end Codec

/-- The engine of the standard is one. -/
theorem standardNoPad_standard : NoPadEngine.Standard standardNoPad where
  encode_eq _ := rfl
  decode_eq text bytes h := by simp only [standardNoPad, h, Option.elim_some]

/-- A letter of two bytes goes out padded and comes back without padding. -/
theorem texts_unaltered_letter :
    encode (some "é") = some "w6k=" ∧ Payload.fromBase64 standardNoPad "w6k=" = .ok ⟨utf8Bytes "é"⟩ ∧
      Payload.toBase64 standardNoPad ⟨utf8Bytes "é"⟩ = "w6k" ∧
        decode (Payload.toBase64 standardNoPad ⟨utf8Bytes "é"⟩) = "é" := by
  obtain ⟨hencode, hdecode, _, _⟩ := texts_unaltered standardNoPad_standard
  obtain ⟨text, htext, hread⟩ := hencode "é"
  have hletter : encode (some "é") = some "w6k=" := by decide +kernel
  cases htext.symm.trans hletter
  exact ⟨hletter, hread, by decide +kernel, hdecode (utf8Bytes "é") "é" (utf8Text_utf8Bytes "é")⟩

end ZeroCode.Web
