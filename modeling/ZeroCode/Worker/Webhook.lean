import ZeroCode.Core.StatusJson
import ZeroCode.Core.Ulid
import ZeroCode.Sandbox.Outcome

/-!
# Posting a callback

The result of a submission is posted to its callback URL, signed with a keyed hash over the
time and the body. A response below 300 settles the matter, and so does the fault of the
receiver; anything else, and no response at all, is tried again up to three times.
-/

namespace ZeroCode.Worker

open ZeroCode.Core ZeroCode.Foundation ZeroCode.Sandbox

/-- What became of a callback. -/
inductive CallbackStatus
  | delivered
  | failedAfterRetries
  deriving DecidableEq, Repr

/-- The text of the `callback_status` column. -/
def CallbackStatus.asStr : CallbackStatus → String
  | .delivered => "delivered"
  | .failedAfterRetries => "failed_after_retries"

/-- The pauses before the retries, in seconds. -/
def retryDelays : List ℕ := [1, 5, 30]

/-- The response reports success. -/
def isSuccess (code : ℕ) : Bool := 200 ≤ code && code < 300

/-- The response blames the request. -/
def isClientError (code : ℕ) : Bool := 400 ≤ code && code < 500

/-- A duration in whole milliseconds of 64 bits. -/
def asMillis (d : Duration) : ℕ := d / 1000000 % 2 ^ 64

/-- The value that is posted. -/
def callbackBody (token : Token) (result : SandboxResult) : Json :=
  .object
    [("token", .string (String.ofList token.text)), ("status", result.status.toValue),
      ("exit_code", result.exitCode.elim .null .number), ("cpu_time_ms", .number (asMillis result.cpuTime)),
      ("wall_time_ms", .number (asMillis result.wallTime)), ("memory_kb", .number result.memoryKb)]

/-- The two digits of a byte. -/
def hexByte (b : UInt8) : List Char := (fixedDigits 16 2 b.toNat).map fun d => "0123456789abcdef".toList.getD d '0'

/-- Bytes as digits. -/
def hexEncode (bytes : Bytes) : String := String.ofList (bytes.flatMap hexByte)

/-- What a worker posts with: the text of a value, the keyed hash, which may refuse a key, and its own key. -/
structure Webhook where
  serialize : Json → String
  hmacSha256 : Bytes → Option (Bytes → Bytes)
  secret : Bytes

/-- A request to a callback URL. -/
structure CallbackPost where
  url : String
  contentType : String
  signature : String
  token : String
  body : String
  deriving DecidableEq, Repr

/-- The request of every attempt, unless the key is refused. -/
def Webhook.post (w : Webhook) (timestamp : ℤ) (url : String) (token : Token) (result : SandboxResult) :
    Option CallbackPost :=
  (w.hmacSha256 w.secret).map fun mac =>
    let body := w.serialize (callbackBody token result)
    let signature := hexEncode (mac (toString timestamp ++ "." ++ body).toUTF8.toList)
    { url := url
      contentType := "application/json"
      signature := "t=" ++ toString timestamp ++ ",v1=" ++ signature
      token := String.ofList token.text
      body := body }

/-- Attempt the delivery after each of the pauses in turn. `respond n` is the status of the response to attempt `n`,
if there is one. -/
def attemptDelivery (respond : ℕ → Option ℕ) (attempt : ℕ) : List ℕ → CallbackStatus
  | [] => .failedAfterRetries
  | _ :: delays =>
    match respond attempt with
    | some code =>
      if isSuccess code then .delivered
      else if isClientError code then .failedAfterRetries
      else attemptDelivery respond (attempt + 1) delays
    | none => attemptDelivery respond (attempt + 1) delays

/-- Deliver the result to the callback URL. -/
def Webhook.deliver (w : Webhook) (timestamp : ℤ) (respond : ℕ → Option ℕ) (url : String) (token : Token)
    (result : SandboxResult) : CallbackStatus :=
  match w.post timestamp url token result with
  | none => .failedAfterRetries
  -- the first attempt is made at once
  | some _ => attemptDelivery respond 0 (0 :: retryDelays)

/-- Another attempt is made after this reply, if there is one left. -/
def isRetried (reply : Option ℕ) : Bool := reply.all fun code => !isSuccess code && !isClientError code

/-- What is retried has not succeeded. -/
theorem not_isSuccess_of_isRetried {reply : Option ℕ} (h : isRetried reply = true) : reply.any isSuccess = false := by
  cases reply with
  | none => rfl
  | some code =>
    have hboth : isSuccess code = false ∧ isClientError code = false := by simpa [isRetried] using h
    exact hboth.1

/-- Behind a reply that is retried the next attempt decides. -/
theorem attemptDelivery_of_isRetried {respond : ℕ → Option ℕ} {attempt : ℕ} (h : isRetried (respond attempt) = true)
    (delay : ℕ) (delays : List ℕ) :
    attemptDelivery respond attempt (delay :: delays) = attemptDelivery respond (attempt + 1) delays := by
  cases hreply : respond attempt with
  | none => rw [attemptDelivery, hreply]
  | some code =>
    rw [hreply] at h
    obtain ⟨hsuccess, hclient⟩ : isSuccess code = false ∧ isClientError code = false := by simpa [isRetried] using h
    rw [attemptDelivery, hreply]
    simp only [hsuccess, hclient, Bool.false_eq_true, if_false]

/-- A reply that is not retried decides by itself. -/
theorem attemptDelivery_of_not_isRetried {respond : ℕ → Option ℕ} {attempt : ℕ}
    (h : ¬ isRetried (respond attempt) = true) (delay : ℕ) (delays : List ℕ) :
    attemptDelivery respond attempt (delay :: delays) = .delivered ↔ (respond attempt).any isSuccess = true := by
  cases hreply : respond attempt with
  | none =>
    rw [hreply] at h
    exact absurd rfl h
  | some code =>
    rw [attemptDelivery, hreply]
    cases hsuccess : isSuccess code with
    | true => simp [hsuccess]
    | false =>
      have hclient : isClientError code = true := by simpa [hreply, isRetried, hsuccess] using h
      simp [hsuccess, hclient]

/-- The attempts deliver exactly if one of them succeeds and all before it are retried. -/
theorem attemptDelivery_eq_delivered_iff (respond : ℕ → Option ℕ) (attempt : ℕ) (delays : List ℕ) :
    attemptDelivery respond attempt delays = .delivered ↔
      ∃ n, attempt ≤ n ∧ n < attempt + delays.length ∧ (respond n).any isSuccess = true ∧
        ∀ m, attempt ≤ m → m < n → isRetried (respond m) = true := by
  induction delays generalizing attempt with
  | nil =>
    constructor
    · intro h
      cases h
    · rintro ⟨n, hle, hlt, _⟩
      simp only [List.length_nil] at hlt
      omega
  | cons delay delays ih =>
    simp only [List.length_cons]
    by_cases hretried : isRetried (respond attempt) = true
    · rw [attemptDelivery_of_isRetried hretried, ih]
      constructor
      · rintro ⟨n, hle, hlt, hsuccess, hbefore⟩
        refine ⟨n, by omega, by omega, hsuccess, fun m hm hmn => ?_⟩
        rcases eq_or_lt_of_le hm with rfl | hm
        · exact hretried
        · exact hbefore m hm hmn
      · rintro ⟨n, hle, hlt, hsuccess, hbefore⟩
        have hne : attempt ≠ n := by
          rintro rfl
          cases (not_isSuccess_of_isRetried hretried).symm.trans hsuccess
        exact ⟨n, by omega, by omega, hsuccess, fun m hm hmn => hbefore m (by omega) hmn⟩
    · rw [attemptDelivery_of_not_isRetried hretried]
      constructor
      · intro hsuccess
        exact ⟨attempt, le_rfl, by omega, hsuccess, fun m hm hmn => by omega⟩
      · rintro ⟨n, hle, _, hsuccess, hbefore⟩
        rcases eq_or_lt_of_le hle with rfl | hlt
        · exact hsuccess
        · exact absurd (hbefore attempt le_rfl hlt) hretried

/-- A delivery succeeds exactly if the key is accepted and one of four attempts succeeds before any is refused. -/
theorem Webhook.deliver_eq_delivered_iff (w : Webhook) (timestamp : ℤ) (respond : ℕ → Option ℕ) (url : String)
    (token : Token) (result : SandboxResult) :
    w.deliver timestamp respond url token result = .delivered ↔
      (w.hmacSha256 w.secret).isSome = true ∧ ∃ n < 4, (respond n).any isSuccess = true ∧
        ∀ m < n, isRetried (respond m) = true := by
  have hpost : (w.post timestamp url token result).isSome = (w.hmacSha256 w.secret).isSome := Option.isSome_map
  unfold Webhook.deliver
  cases hcase : w.post timestamp url token result with
  | none =>
    rw [hcase] at hpost
    constructor
    · intro h
      cases h
    · rintro ⟨hsome, _⟩
      cases hpost.trans hsome
  | some post =>
    rw [hcase] at hpost
    change attemptDelivery respond 0 (0 :: retryDelays) = .delivered ↔ _
    rw [attemptDelivery_eq_delivered_iff]
    constructor
    · rintro ⟨n, _, hlt, hsuccess, hbefore⟩
      exact ⟨hpost.symm, n, by simpa [retryDelays] using hlt, hsuccess, fun m hm => hbefore m (Nat.zero_le m) hm⟩
    · rintro ⟨_, n, hlt, hsuccess, hbefore⟩
      exact ⟨n, Nat.zero_le n, by simpa [retryDelays] using hlt, hsuccess, fun m _ hm => hbefore m hm⟩

end ZeroCode.Worker
