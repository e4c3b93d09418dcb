import Mathlib.Data.NNRat.Defs
import ZeroCode.Foundation.Simultaneous
import ZeroCode.Sandbox.Placeholders

/-!
# The substitution of limits

Two backends have a copy of the function that puts the limits of a job into a command or
environment string by five replacements. Whatever the limits are, also where a time is no
number or not finite, a printed limit never becomes a part of a placeholder. So the five
replacements fill all placeholders at once, in any order, and leave none.
-/

namespace ZeroCode.Sandbox

open ZeroCode.Core ZeroCode.Foundation

/-- A number in double precision, as printing reads it: the sign apart from the size. -/
inductive Double
  | nan
  | infinite (negative : Bool)
  | finite (negative : Bool) (size : ℚ≥0)
  deriving DecidableEq

/-- The sign in front of a printed number. -/
def printSign (negative : Bool) : String := if negative then "-" else ""

/-- Print a number with three decimals. -/
def Double.format : Double → String
  | .nan => "NaN"
  | .infinite negative => printSign negative ++ "inf"
  | .finite negative size => printSign negative ++ formatMillis size

/-- The limits the substitution reads. -/
structure PrintedLimits where
  memoryMb : ℕ
  cpuTime : Double
  wallTime : Double
  maxPids : ℕ
  deriving DecidableEq

/-- The substitution of the native backend. -/
def Native.substituteLimits (input : String) (limits : PrintedLimits) : String :=
  let jvmHeap := max (limits.memoryMb - 256) 32
  let s := replace input "${memory_mb}" (toString limits.memoryMb)
  let s := replace s "${jvm_heap_mb}" (toString jvmHeap)
  let s := replace s "${cpu_time}" limits.cpuTime.format
  let s := replace s "${wall_time}" limits.wallTime.format
  replace s "${max_pids}" (toString limits.maxPids)

/-- The substitution of the plumbing backend. -/
def Naive.substituteLimits (input : String) (limits : PrintedLimits) : String :=
  let jvmHeap := max (limits.memoryMb - 256) 32
  let s := replace input "${memory_mb}" (toString limits.memoryMb)
  let s := replace s "${jvm_heap_mb}" (toString jvmHeap)
  let s := replace s "${cpu_time}" limits.cpuTime.format
  let s := replace s "${wall_time}" limits.wallTime.format
  replace s "${max_pids}" (toString limits.maxPids)

/-- The text of a placeholder. -/
def Placeholder.text : Placeholder → String
  | .memoryMb => "${memory_mb}"
  | .jvmHeapMb => "${jvm_heap_mb}"
  | .cpuTime => "${cpu_time}"
  | .wallTime => "${wall_time}"
  | .maxPids => "${max_pids}"

/-- What is put in the place of a placeholder. -/
def PrintedLimits.print (limits : PrintedLimits) : Placeholder → String
  | .memoryMb => toString limits.memoryMb
  | .jvmHeapMb => toString (max (limits.memoryMb - 256) 32)
  | .cpuTime => limits.cpuTime.format
  | .wallTime => limits.wallTime.format
  | .maxPids => toString limits.maxPids

/-- The replacements, in some order. -/
def PrintedLimits.replaceInOrder (limits : PrintedLimits) (order : List Placeholder) (input : String) : String :=
  order.foldl (fun s k => replace s k.text (limits.print k)) input

/-- A character of a printed limit. -/
def isPrintedChar (c : Char) : Bool := isLimitChar c || ['-', 'N', 'a', 'i', 'n', 'f'].contains c

/-- A character that no placeholder has. -/
def Foreign (c : Char) : Prop := ∀ k : Placeholder, c ∉ k.pattern

/-- Digits and points are foreign. -/
theorem foreign_of_isLimitChar {c : Char} (h : isLimitChar c = true) : Foreign c := by
  intro k hmem
  have hfalse := (pattern_not_limitChar k c hmem).1
  rw [h] at hfalse
  cases hfalse

/-- A number is printed with characters of printed limits, some of them foreign. -/
theorem Double.format_chars (d : Double) :
    (∀ c ∈ d.format.toList, isPrintedChar c = true) ∧ ∃ c ∈ d.format.toList, Foreign c := by
  have hsign (negative : Bool) : ∀ c ∈ (printSign negative).toList, isPrintedChar c = true := by
    cases negative <;> exact List.all_eq_true.mp (by decide)
  cases d with
  | nan => exact ⟨List.all_eq_true.mp (by decide), 'N', by decide, fun k => by cases k <;> decide +kernel⟩
  | infinite negative =>
    have hinf : ∀ c ∈ "inf".toList, isPrintedChar c = true := List.all_eq_true.mp (by decide)
    simp only [Double.format, String.toList_append, List.mem_append]
    exact ⟨fun c hc => hc.elim (hsign negative c) (hinf c), 'n', Or.inr (by decide), fun k => by cases k <;> decide +kernel⟩
  | finite negative size =>
    simp only [Double.format, String.toList_append, List.mem_append]
    refine ⟨fun c hc => hc.elim (hsign negative c) fun hnumber => ?_, '.', Or.inr ?_, fun k => by cases k <;> decide +kernel⟩
    · rw [isPrintedChar, isLimitChar_of_mem_formatMillis hnumber, Bool.true_or]
    · simp [formatMillis]

/-- So is every limit. -/
theorem PrintedLimits.print_chars (limits : PrintedLimits) (k : Placeholder) :
    (∀ c ∈ (limits.print k).toList, isPrintedChar c = true) ∧ ∃ c ∈ (limits.print k).toList, Foreign c := by
  have hnumber (n : ℕ) : (∀ c ∈ (toString n).toList, isPrintedChar c = true) ∧ ∃ c ∈ (toString n).toList, Foreign c := by
    have hchars : ∀ c ∈ (toString n).toList, isLimitChar c = true := fun c hc => isLimitChar_of_mem_toString hc
    obtain ⟨c, hc⟩ := List.exists_mem_of_ne_nil (toString n).toList (by simp)
    exact ⟨fun c hc => by rw [isPrintedChar, hchars c hc, Bool.true_or], c, hc, foreign_of_isLimitChar (hchars c hc)⟩
  cases k with
  | memoryMb | jvmHeapMb | maxPids => exact hnumber _
  | cpuTime | wallTime => exact Double.format_chars _

/-- Every placeholder starts with the only dollar in it and ends with a brace. -/
theorem pattern_form (k : Placeholder) :
    k.pattern.head? = some '$' ∧ '$' ∉ k.pattern.tail ∧ k.pattern.getLast? = some '}' := by
  cases k <;> decide

/-- No placeholder is the start of another one. -/
theorem pattern_unique {j k : Placeholder} (h : j.pattern <+: k.pattern) : j = k := by
  revert h
  cases j <;> cases k <;> decide

/-- Placeholders and printed limits do not overlap. -/
theorem separate_print (limits : PrintedLimits) : Separate Placeholder.pattern fun k => (limits.print k).toList where
  nonempty k := pattern_ne_nil k (by cases k <;> decide)
  heads j k a ha := by
    rw [(pattern_form j).1, Option.mem_some_iff] at ha
    subst ha
    refine ⟨(pattern_form k).2.1, fun hmem => ?_⟩
    exact absurd ((limits.print_chars k).1 '$' hmem) (by decide)
  unique j k h := pattern_unique h
  clash j k tail htail hne := by
    constructor
    · intro hstarts
      have hlast : tail.getLast? = some '}' := by
        obtain ⟨front, hfront⟩ := htail
        rw [← (pattern_form k).2.2, ← hfront, List.getLast?_append_of_ne_nil _ hne]
      have hmem : '}' ∈ (limits.print j).toList := hstarts.subset (List.mem_of_getLast? hlast)
      exact absurd ((limits.print_chars j).1 '}' hmem) (by decide)
    · intro hstarts
      obtain ⟨c, hc, hforeign⟩ := (limits.print_chars j).2
      exact hforeign k (htail.subset (hstarts.subset hc))

/-- The replacements on the characters of a string. -/
theorem replaceInOrder_toList (limits : PrintedLimits) (order : List Placeholder) (input : String) :
    (limits.replaceInOrder order input).toList =
      substitute Placeholder.pattern (fun k => (limits.print k).toList) order input.toList := by
  induction order generalizing input with
  | nil => rfl
  | cons k order ih =>
    have htext : k.text.toList = k.pattern := by cases k <;> rfl
    have hstep : (replace input k.text (limits.print k)).toList =
        replaceFrom k.pattern (limits.print k).toList 0 input.toList := by
      rw [replace, String.toList_ofList, replaceChars_eq, htext]
    rw [PrintedLimits.replaceInOrder, List.foldl_cons, substitute, List.foldl_cons, ← hstep]
    exact ih _

/-- The five replacements fill all placeholders at once, do so in any order, leave none, and are those of the plumbing
backend. -/
theorem substituteLimits_simultaneous (input : String) (limits : PrintedLimits) :
    (Native.substituteLimits input limits).toList =
        fill Placeholder.pattern (fun k => (limits.print k).toList) Placeholder.all 0 input.toList ∧
      (∀ order : List Placeholder, order.Perm Placeholder.all →
        limits.replaceInOrder order input = Native.substituteLimits input limits) ∧
      (∀ k : Placeholder, ¬ k.pattern <:+: (Native.substituteLimits input limits).toList) ∧
      Naive.substituteLimits input limits = Native.substituteLimits input limits := by
  have hseparate := separate_print limits
  have hnative : Native.substituteLimits input limits = limits.replaceInOrder Placeholder.all input := rfl
  have hnaive : Naive.substituteLimits input limits = limits.replaceInOrder Placeholder.all input := rfl
  have hfill (order : List Placeholder) : (limits.replaceInOrder order input).toList =
      fill Placeholder.pattern (fun k => (limits.print k).toList) order 0 input.toList := by
    rw [replaceInOrder_toList, hseparate.substitute_eq_fill]
  rw [hnaive, hnative]
  refine ⟨hfill _, fun order hperm => ?_, fun k => ?_, rfl⟩
  · rw [← String.toList_inj, hfill, hfill, hseparate.fill_perm hperm]
  · rw [hfill]
    exact hseparate.not_infix_fill (by cases k <;> decide) _

/-- The limits of a job, printed. -/
def PrintedLimits.of (limits : ResourceLimits) (hcpu : 0 ≤ limits.cpuTime) (hwall : 0 ≤ limits.wallTime) :
    PrintedLimits where
  memoryMb := limits.memoryMb
  cpuTime := .finite false ⟨limits.cpuTime, hcpu⟩
  wallTime := .finite false ⟨limits.wallTime, hwall⟩
  maxPids := limits.maxPids

/-- The command and environment strings of a job are substituted so. -/
theorem substituteLimits_eq_native (input : String) (limits : ResourceLimits) (hcpu : 0 ≤ limits.cpuTime)
    (hwall : 0 ≤ limits.wallTime) :
    substituteLimits input limits = Native.substituteLimits input (.of limits hcpu hwall) := by
  have hformat {q : ℚ} (hq : 0 ≤ q) : formatMillis q = (Double.finite false ⟨q, hq⟩).format := by
    simp [Double.format, printSign]
  simp only [substituteLimits, Native.substituteLimits, PrintedLimits.of]
  rw [hformat hcpu, hformat hwall]

end ZeroCode.Sandbox
