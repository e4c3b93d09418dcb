import ZeroCode.Foundation.Lines
import ZeroCode.Web.TestsPanel
import Mathlib.Order.Monotone.Basic

/-!
# The comparison modes

The modes of a comparison are a chain: what is equal as it stands is equal when trimmed, then
its words are equal, and then it is equal without white space. The trimming mode is meant to
drop the blanks at the end of every line and one final newline. It does so except for the
blanks at the end of a last line that no newline ends, and then for the newline before them.
-/

namespace ZeroCode.Web

open ZeroCode.Foundation

/-- How much a mode overlooks. -/
def ComparisonMode.laxness : ComparisonMode → ℕ
  | .exact => 0
  | .trim => 1
  | .tokens => 2
  | .ignoreWs => 3

/-- The mode that overlooks so much. -/
def ComparisonMode.ofLaxness : ℕ → ComparisonMode
  | 0 => .exact
  | 1 => .trim
  | 2 => .tokens
  | _ => .ignoreWs

/-- A mode is found again by what it overlooks. -/
theorem ComparisonMode.ofLaxness_laxness (mode : ComparisonMode) : .ofLaxness mode.laxness = mode := by
  cases mode <;> rfl

/-- The output as the trimming mode compares it. -/
def trimmed (text : List Char) : List Char := dropFinalNewline (dropBlanks text)

section Words

/-- The pieces between white space that are not empty. -/
def foundWords (text : List Char) : List (List Char) := (text.splitOnP isSpace).filter fun word => !word.isEmpty

/-- White space separates words. -/
theorem foundWords_append_space {c : Char} (hc : isSpace c) (front rest : List Char) :
    foundWords (front ++ c :: rest) = foundWords front ++ foundWords rest := by
  rw [foundWords, List.splitOnP_append_cons front rest hc, List.filter_append, foundWords, foundWords]

/-- White space in front of white space separates nothing more. -/
theorem foundWords_append_spaces {c d : Char} (hc : isSpace c) (hd : isSpace d) (front rest : List Char) :
    foundWords (front ++ c :: d :: rest) = foundWords (front ++ d :: rest) := by
  have hnone : foundWords (d :: rest) = foundWords rest := foundWords_append_space hd [] rest
  rw [foundWords_append_space hc, foundWords_append_space hd, hnone]

/-- White space at the end separates nothing. -/
theorem foundWords_concat_space {c : Char} (hc : isSpace c) (text : List Char) :
    foundWords (text ++ [c]) = foundWords text := by
  rw [foundWords_append_space hc]
  exact List.append_nil _

/-- Blanks are white space. -/
theorem isSpace_of_isBlank {c : Char} (h : isBlank c) : isSpace c := by
  rcases Bool.or_eq_true_iff.mp h with hspace | htab
  · rw [eq_of_beq hspace]
    decide
  · rw [eq_of_beq htab]
    decide

/-- What ends a line starts with white space. -/
theorem exists_space_of_endsLine {text : List Char} (h : endsLine (text.dropWhile isBlank)) :
    ∃ d rest, text = d :: rest ∧ isSpace d := by
  cases text with
  | nil => cases h
  | cons d rest =>
    refine ⟨d, rest, rfl, ?_⟩
    by_cases hd : isBlank d
    · exact isSpace_of_isBlank hd
    · rw [List.dropWhile_cons_of_neg hd] at h
      unfold endsLine at h
      split at h
      · rename_i heq
        rw [(List.cons.inj heq).1]
        decide
      · rename_i heq
        rw [(List.cons.inj heq).1]
        decide
      · cases h

/-- The blanks in front of a line end are between no words. The part of the text in front is kept along, since a
letter in front decides whether the next one starts a word. -/
theorem foundWords_append_dropBlanks (front text : List Char) :
    foundWords (front ++ dropBlanks text) = foundWords (front ++ text) := by
  induction text generalizing front with
  | nil => rfl
  | cons c rest ih =>
    rw [dropBlanks]
    split
    · rename_i hdropped
      obtain ⟨hblank, hends⟩ := Bool.and_eq_true_iff.mp hdropped
      obtain ⟨d, behind, rfl, hd⟩ := exists_space_of_endsLine hends
      rw [ih front, foundWords_append_spaces (isSpace_of_isBlank hblank) hd]
    · have hkept := ih (front ++ [c])
      rwa [List.append_assoc, List.append_assoc] at hkept

/-- A text ends in a newline, with or without a carriage return, or stays as it is. -/
theorem dropFinalNewline_cases (text : List Char) :
    text = dropFinalNewline text ++ ['\r', '\n'] ∨ text = dropFinalNewline text ++ ['\n'] ∨
      dropFinalNewline text = text := by
  unfold dropFinalNewline
  split
  · rename_i rest heq
    exact Or.inl (by rw [← List.reverse_reverse text, heq]; simp)
  · rename_i rest _ heq
    exact Or.inr (Or.inl (by rw [← List.reverse_reverse text, heq]; simp))
  · exact Or.inr (Or.inr rfl)

/-- The final newline separates no words. -/
theorem foundWords_dropFinalNewline (text : List Char) : foundWords (dropFinalNewline text) = foundWords text := by
  have hreturn : isSpace '\r' := by decide
  have hnewline : isSpace '\n' := by decide
  rcases dropFinalNewline_cases text with hboth | hone | hsame
  · conv_rhs => rw [hboth, foundWords_append_spaces hreturn hnewline, foundWords_concat_space hnewline]
  · conv_rhs => rw [hone, foundWords_concat_space hnewline]
  · rw [hsame]

/-- Trimming keeps the words. -/
theorem foundWords_trimmed (text : List Char) : foundWords (trimmed text) = foundWords text := by
  rw [trimmed, foundWords_dropFinalNewline]
  exact foundWords_append_dropBlanks [] text

/-- The words of a text are found in it, or there is one empty word. -/
theorem words_eq (text : List Char) : words text = if foundWords text = [] then [[]] else foundWords text := by
  unfold words foundWords
  split
  · rename_i hnone
    rw [if_pos hnone]
  · rename_i hsome
    rw [if_neg hsome]

/-- The words of a text in one are the text without white space. -/
theorem flatten_words (text : List Char) : (words text).flatten = text.filter fun c => !isSpace c := by
  have hfound : (foundWords text).flatten = text.filter fun c => !isSpace c := by
    rw [foundWords, List.flatten_filter_not_isEmpty, flatten_splitOnP]
  rw [words_eq]
  split_ifs with hnone
  · rw [← hfound, hnone]
    rfl
  · exact hfound

end Words

section Chain

variable {actual expected : String}

/-- What is equal as it stands is equal when trimmed. -/
theorem compare_trim_of_exact (h : compare actual expected .exact = true) :
    compare actual expected .trim = true := by
  unfold compare at h ⊢
  split_ifs at h ⊢ with hempty
  · rfl
  · rw [eq_of_beq h]
    exact beq_self_eq_true _

/-- What is equal when trimmed has equal words. -/
theorem compare_tokens_of_trim (h : compare actual expected .trim = true) :
    compare actual expected .tokens = true := by
  unfold compare at h ⊢
  split_ifs at h ⊢ with hempty
  · rfl
  · have hfound : foundWords actual.toList = foundWords expected.toList := by
      rw [← foundWords_trimmed, ← foundWords_trimmed expected.toList]
      exact congrArg foundWords (eq_of_beq h)
    exact beq_iff_eq.mpr (by rw [words_eq, words_eq, hfound])

/-- What has equal words is equal without white space. -/
theorem compare_ignoreWs_of_tokens (h : compare actual expected .tokens = true) :
    compare actual expected .ignoreWs = true := by
  unfold compare at h ⊢
  split_ifs at h ⊢ with hempty
  · rfl
  · refine beq_iff_eq.mpr ?_
    rw [← flatten_words, ← flatten_words, eq_of_beq h]

/-- The next mode accepts what a mode accepts. -/
theorem compare_ofLaxness_succ (n : ℕ) (h : compare actual expected (.ofLaxness n) = true) :
    compare actual expected (.ofLaxness (n + 1)) = true := by
  match n with
  | 0 => exact compare_trim_of_exact h
  | 1 => exact compare_tokens_of_trim h
  | 2 => exact compare_ignoreWs_of_tokens h
  | _ + 3 => exact h

/-- What a mode accepts, every laxer one accepts. -/
theorem compare_of_laxness_le {mode laxer : ComparisonMode} (hlax : mode.laxness ≤ laxer.laxness)
    (h : compare actual expected mode = true) : compare actual expected laxer = true := by
  have hmono : Monotone fun n => compare actual expected (.ofLaxness n) = true :=
    monotone_nat_of_le_succ compare_ofLaxness_succ
  rw [← laxer.ofLaxness_laxness]
  rw [← mode.ofLaxness_laxness] at h
  exact hmono hlax h

/-- What passes in a mode passes in every laxer one. -/
theorem grade_pass_of_laxness_le {mode laxer : ComparisonMode} {kind : String}
    (hlax : mode.laxness ≤ laxer.laxness) (h : grade mode kind actual expected = some .pass) :
    grade laxer kind actual expected = some .pass := by
  unfold grade at h ⊢
  split_ifs at h with hpending hnone hkind hmode
  · cases h
  · cases h
  · rw [if_neg hpending, if_neg hnone, if_neg hkind, if_pos (compare_of_laxness_le hlax hmode)]
  · cases h

/-- The modes are a chain on all outputs, and a case that passes keeps passing in a laxer mode. -/
theorem comparison_modes_chain (actual expected : String) :
    (compare actual expected .exact = true → compare actual expected .trim = true) ∧
      (compare actual expected .trim = true → compare actual expected .tokens = true) ∧
      (compare actual expected .tokens = true → compare actual expected .ignoreWs = true) ∧
      ∀ (mode laxer : ComparisonMode) (kind : String), mode.laxness ≤ laxer.laxness →
        grade mode kind actual expected = some .pass → grade laxer kind actual expected = some .pass :=
  ⟨compare_trim_of_exact, compare_tokens_of_trim, compare_ignoreWs_of_tokens,
    fun _ _ _ hlax => grade_pass_of_laxness_le hlax⟩

end Chain

section Strip

end Strip

end ZeroCode.Web
