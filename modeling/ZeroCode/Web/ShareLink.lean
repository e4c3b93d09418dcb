import ZeroCode.Foundation.FlatKeyed
import ZeroCode.Foundation.UrlEncoded
import ZeroCode.Web.TextCodec

/-!
# Links to a program

The playground writes its language, program, input and token into the fragment of its
address, and a page that is opened at such an address starts from them. The program and the
input are base64 of their UTF-8 inside parameters of the address, so they pass three
encodings. Whatever draft the browser has kept, the page shows what was shared; only an
empty program is replaced by the snippet of the language, and a missing token by a new one.
-/

namespace ZeroCode.Web

open ZeroCode.Core ZeroCode.Foundation

/-- A language of the playground. -/
structure Lang where
  id : ℕ
  name : String
  snippet : String
  sampleStdin : String
  deriving DecidableEq, Repr

/-- What is read from an address. -/
structure ShareHash where
  lang : Option String
  token : Option String
  code : Option String
  stdin : String
  deriving DecidableEq, Repr

/-- What is written into an address. -/
structure ShareState where
  langId : Option ℕ
  code : Option String
  stdin : Option String
  token : Option String

/-- The limits that the sliders have. -/
structure RunLimits where
  memoryMb : ℕ
  timeS : ℕ
  deriving DecidableEq, Repr

/-- What the browser has kept. Each part may be missing. -/
structure Draft where
  langId : Option ℕ
  code : Option String
  stdin : Option String
  memoryMb : Option ℕ
  timeS : Option ℕ

/-- What the playground starts from. -/
structure Playground where
  lang : Lang
  code : String
  stdin : String
  limits : RunLimits
  token : String
  deriving DecidableEq, Repr

/-- Decode a payload of a link. One that is no text in base64 throws. -/
def shareText (param : String) : Option String := ((atob param).map escape).bind decodeURIComponent

/-- Read the fragment of the address, with its number sign. -/
def readShareHash (hash : List Char) : Option (Option ShareHash) :=
  let h := if hash.head? = some '#' then hash.tail else hash
  if h.isEmpty then some none
  else do
    let p := formParse (if h.head? = some '?' then h.tail else h)
    let code ← (truthy (getParam p "code")).mapM shareText
    let stdin ← (truthy (getParam p "stdin")).mapM shareText
    some (some ⟨getParam p "lang", getParam p "token", code, stdin.getD ""⟩)

/-- Set a parameter that has a value. -/
def setSome (name : String) (value : Option String) (pairs : List (String × String)) : List (String × String) :=
  match value with
  | none => pairs
  | some v => setParam name v pairs

/-- Write the fragment of the address, with its number sign. Without a parameter there is none. -/
def writeShareHash (s : ShareState) : Option (List Char) := do
  let code ← (truthy s.code).mapM fun text => encode (some text)
  let stdin ← (truthy s.stdin).mapM fun text => encode (some text)
  let p := setSome "token" (truthy s.token)
    (setSome "stdin" stdin (setSome "code" code (setSome "lang" (s.langId.map Nat.repr) [])))
  let qs := formSerialize p
  some (if qs.isEmpty then [] else '#' :: fragmentText qs)

/-- The language that the playground starts with. -/
def pickInitialLang (langs : List Lang) (share : Option ShareHash) (draft : Option Draft) : Option Lang :=
  let shared := (share.bind fun s => truthy s.lang).bind fun id => langs.find? fun l => l.id.repr = id
  let drafted := (draft.bind fun d => d.langId).bind fun id => langs.find? fun l => l.id = id
  (shared.or drafted).or ((langs.find? fun l => l.name = "Rust").or langs.head?)

/-- What the playground starts from, at an address and with a draft and a new token at hand. -/
def initialState (langs : List Lang) (hash : List Char) (stored : Option Draft) (fresh : String) :
    Option Playground := do
  let share ← readShareHash hash
  let draft := if share.isNone then stored else none
  let lang ← pickInitialLang langs share draft
  some
    { lang
      code := ((share.bind fun s => s.code).or (draft.bind fun d => d.code)).getD lang.snippet
      stdin := ((share.map fun s => s.stdin).or (draft.bind fun d => d.stdin)).getD lang.sampleStdin
      limits := ⟨(draft.bind fun d => d.memoryMb).getD 1024, (draft.bind fun d => d.timeS).getD 30⟩
      token := (truthy (share.bind fun s => s.token)).getD fresh }

/-- What the playground writes into its address. -/
def Playground.shareState (p : Playground) : ShareState := ⟨some p.lang.id, some p.code, some p.stdin, some p.token⟩

/-- No parameter has a value when there is none. -/
theorem getParam_nil (name : String) : getParam [] name = none := rfl

/-- A parameter that was set or left out is read as it was. -/
theorem getParam_setSome (name other : String) (value : Option String) (pairs : List (String × String)) :
    getParam (setSome name value pairs) other =
      if other = name then value.or (getParam pairs other) else getParam pairs other := by
  cases value with
  | none =>
    rw [setSome, Option.none_or]
    exact (ite_self _).symm
  | some v => rw [setSome, getParam_setParam, Option.some_or]

/-- A payload that was encoded is read back. -/
theorem shareText_encode (s : String) : (encode (some s)).bind shareText = some s := by
  have hread : atob (String.ofList (Base64.encode (utf8Bytes s) ++ Base64.padding (utf8Bytes s))) =
      some (utf8Bytes s) := by
    rw [atob, String.toList_ofList, Base64.forgiving_padded]
  rw [encode_eq, Option.bind_some, shareText, hread, Option.map_some, Option.bind_some, decodeURIComponent_escape,
    utf8Text_utf8Bytes]

/-- An encoded text that is not empty is not empty. -/
theorem truthy_encode {s text : String} (hs : s ≠ "") (htext : encode (some s) = some text) :
    truthy (some text) = some text := by
  have hne : text ≠ "" := by
    intro hempty
    have hread := shareText_encode s
    rw [htext, Option.bind_some, hempty] at hread
    exact hs (Option.some_injective _ hread).symm
  simp [truthy, hne]

/-- A part of the address that is left out when it is empty, and otherwise encoded, is read back. -/
theorem encoded_part (s : String) : ∃ part, ((truthy (some s)).mapM fun text => encode (some text)) = some part ∧
    (truthy part).mapM shareText = some (truthy (some s)) := by
  by_cases hs : s = ""
  · subst hs
    exact ⟨none, rfl, rfl⟩
  · have hkept : truthy (some s) = some s := by simp [truthy, hs]
    obtain ⟨text, htext⟩ : ∃ text, encode (some s) = some text := ⟨_, encode_eq s⟩
    have hread := shareText_encode s
    rw [htext, Option.bind_some] at hread
    refine ⟨some text, by rw [hkept, Option.mapM_some, htext]; rfl, ?_⟩
    rw [truthy_encode hs htext, hkept, Option.mapM_some, hread]
    rfl

/-- The address is read as it was written. -/
theorem readShareHash_writeShareHash (id : ℕ) (code stdin token : String) :
    ∃ hash, writeShareHash ⟨some id, some code, some stdin, some token⟩ = some hash ∧
      readShareHash hash = some (some ⟨some id.repr, truthy (some token), truthy (some code), stdin⟩) := by
  obtain ⟨codePart, hcode, hcodeRead⟩ := encoded_part code
  obtain ⟨stdinPart, hstdin, hstdinRead⟩ := encoded_part stdin
  set pairs := setSome "token" (truthy (some token)) (setSome "stdin" stdinPart
    (setSome "code" codePart (setSome "lang" (some id.repr) []))) with hpairs
  have hlang : getParam pairs "lang" = some id.repr := by
    simp [hpairs, getParam_setSome]
  have hqs : formSerialize pairs ≠ [] := by
    intro hempty
    have hnone : pairs = [] := (formParse_formSerialize pairs).symm.trans (hempty ▸ rfl)
    rw [hnone] at hlang
    cases hlang
  have hquestion : (formSerialize pairs).head? ≠ some '?' := fun hhead =>
    (mem_formSerialize (List.mem_of_mem_head? hhead)).1 rfl
  have hwritten :
      writeShareHash ⟨some id, some code, some stdin, some token⟩ = some ('#' :: formSerialize pairs) := by
    rw [writeShareHash, hcode, hstdin]
    simp only [Option.bind_eq_bind, Option.bind_some, Option.map_some, ← hpairs, List.isEmpty_eq_false_iff.mpr hqs,
      fragmentText_formSerialize, Bool.false_eq_true, if_false]
  refine ⟨_, hwritten, ?_⟩
  have hcodeParam : getParam pairs "code" = codePart := by simp [hpairs, getParam_setSome, getParam_nil]
  have hstdinParam : getParam pairs "stdin" = stdinPart := by simp [hpairs, getParam_setSome, getParam_nil]
  have htokenParam : getParam pairs "token" = truthy (some token) := by simp [hpairs, getParam_setSome, getParam_nil]
  rw [readShareHash]
  simp only [List.head?_cons, if_true, List.tail_cons, List.isEmpty_eq_false_iff.mpr hqs, Bool.false_eq_true, if_false,
    if_neg hquestion, formParse_formSerialize, hcodeParam, hstdinParam, htokenParam, hlang, hcodeRead, hstdinRead,
    Option.bind_eq_bind, Option.bind_some, getD_truthy, Option.getD_some]

/-- The language of a link is found, if no other one has its number. -/
theorem pickInitialLang_shared {langs : List Lang} (hids : (langs.map Lang.id).Nodup) {lang : Lang}
    (hlang : lang ∈ langs) {share : ShareHash} (hshare : share.lang = some lang.id.repr) (draft : Option Draft) :
    pickInitialLang langs (some share) draft = some lang := by
  have htruthy : truthy (some lang.id.repr) = some lang.id.repr := by
    simp [truthy, Nat.repr_ne_empty]
  have hfound : (langs.find? fun l => l.id.repr = lang.id.repr) = some lang := by
    cases hfind : langs.find? fun l => l.id.repr = lang.id.repr with
    | none => exact absurd (decide_eq_true rfl) (List.find?_eq_none.mp hfind lang hlang)
    | some found =>
      have hrepr : found.id.repr = lang.id.repr := by simpa using List.find?_some hfind
      have hid : found.id = lang.id := toDigits_injective (String.ofList_injective hrepr)
      rw [List.inj_on_of_nodup_map hids (List.mem_of_find?_eq_some hfind) hlang hid]
  rw [pickInitialLang, Option.bind_some, hshare, htruthy, Option.bind_some, hfound, Option.some_or, Option.some_or]

/-- A page that is opened at a link starts from what was shared, whatever draft the browser has
kept: an empty program is the snippet of the language, and a missing token is a new one. -/
theorem initialState_shared {langs : List Lang} (hids : (langs.map Lang.id).Nodup) (p : Playground)
    (hlang : p.lang ∈ langs) (stored : Option Draft) (fresh : String) :
    ∃ hash, writeShareHash p.shareState = some hash ∧ initialState langs hash stored fresh = some
      { p with
        code := if p.code = "" then p.lang.snippet else p.code
        limits := ⟨1024, 30⟩
        token := if p.token = "" then fresh else p.token } := by
  obtain ⟨hash, hwritten, hread⟩ := readShareHash_writeShareHash p.lang.id p.code p.stdin p.token
  refine ⟨hash, hwritten, ?_⟩
  have hpicked :
      pickInitialLang langs (some ⟨some p.lang.id.repr, truthy (some p.token), truthy (some p.code), p.stdin⟩) none =
        some p.lang :=
    pickInitialLang_shared hids hlang rfl none
  have hkept (text other : String) : (truthy (some text)).getD other = if text = "" then other else text := by
    by_cases hempty : text = ""
    · rw [if_pos hempty, hempty]
      rfl
    · simp [truthy, hempty, Option.filter]
  have htwice : truthy (truthy (some p.token)) = truthy (some p.token) := by
    simp [truthy, Option.filter_filter]
  rw [initialState, hread]
  simp only [Option.bind_eq_bind, Option.bind_some, Option.isNone_some, Bool.false_eq_true, if_false, hpicked,
    Option.bind_none, Option.or_none, Option.map_some, Option.getD_some, Option.getD_none, hkept, htwice]

/-- Two languages of a playground. -/
def twoLangs : List Lang := [⟨71, "Python", "print(input())", "1"⟩, ⟨73, "Rust", "fn main() {}", ""⟩]

/-- A program with signs that an address or base64 would change. -/
theorem initialState_shared_signs :
    ∃ hash, writeShareHash ⟨some 71, some "a = 'é+&=?#'", some "1 2\n", some "01"⟩ = some hash ∧
      initialState twoLangs hash none "zc_new" =
        some ⟨⟨71, "Python", "print(input())", "1"⟩, "a = 'é+&=?#'", "1 2\n", ⟨1024, 30⟩, "01"⟩ :=
  @initialState_shared twoLangs (by decide)
    ⟨⟨71, "Python", "print(input())", "1"⟩, "a = 'é+&=?#'", "1 2\n", ⟨256, 5⟩, "01"⟩ (by decide) none "zc_new"

end ZeroCode.Web
