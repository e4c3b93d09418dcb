import ZeroCode.Web.TestsPanel
import ZeroCode.Foundation.Lines

/-!
# The formatter of the editor

One pass for every language: the line ends become newlines, the tabs in front of a line
become spaces, the blanks behind it go, and the empty lines at the end go. What comes out is
a tidy document, and a tidy document is left as it is.
-/

namespace ZeroCode.Web

open ZeroCode.Foundation

section Lines

/-- Every line end becomes a newline, also a carriage return on its own. -/
def normalizeEnds : List Char → List Char
  | [] => []
  | '\r' :: '\n' :: rest => '\n' :: normalizeEnds rest
  | '\r' :: rest => '\n' :: normalizeEnds rest
  | c :: rest => c :: normalizeEnds rest

/-- The lines of a text. -/
def documentLines (text : String) : List (List Char) := (normalizeEnds text.toList).splitOn '\n'

/-- Four spaces for every tab. -/
def expandTabs (lead : List Char) : List Char := lead.flatMap fun c => if c = '\t' then [' ', ' ', ' ', ' '] else [c]

/-- Tidy a line. -/
def tidyLine (line : List Char) : List Char :=
  let lead := line.takeWhile isBlank
  let body := line.drop lead.length
  (expandTabs lead ++ body).rdropWhile isBlank

/-- Pop the empty lines at the end, but not the only line. -/
def popEmpty (lines : List (List Char)) : List (List Char) :=
  if 1 < lines.length ∧ lines.getLast? = some [] then popEmpty lines.dropLast else lines
termination_by lines.length

/-- Tidy a text. -/
def tidyDocument (text : String) : String :=
  String.ofList (['\n'].intercalate (popEmpty ((documentLines text).map tidyLine)) ++ ['\n'])

/-- A line without its spaces and tabs. -/
def withoutBlanks (line : List Char) : List Char := line.filter fun c => !isBlank c

/-- A line from its first to its last character that is no blank. -/
def trimBlanks (line : List Char) : List Char := (line.dropWhile isBlank).rdropWhile isBlank

/-- No tab in front of the line, no blank behind it, and no end inside. -/
structure IsTidyLine (line : List Char) : Prop where
  lead : '\t' ∉ line.takeWhile isBlank
  trail : ∀ hne : line ≠ [], ¬ isBlank (line.getLast hne)
  ends : '\n' ∉ line ∧ '\r' ∉ line

/-- Tidy lines, and the last of them is not empty if it is not the only one. -/
structure IsTidy (lines : List (List Char)) : Prop where
  nonempty : lines ≠ []
  tidy : ∀ line ∈ lines, IsTidyLine line
  last : ¬ (1 < lines.length ∧ lines.getLast? = some [])

/-- Every line of the output is the line of the input at its index up to blanks in front and behind, and the lines of
the input that are left over are blank. -/
structure OnlyBlanksChange (input output : List (List Char)) : Prop where
  length : output.length ≤ input.length
  same : ∀ (i : ℕ) (line : List Char), output[i]? = some line →
    ∃ old, input[i]? = some old ∧ withoutBlanks line = withoutBlanks old ∧ trimBlanks line = trimBlanks old
  dropped : ∀ (i : ℕ) (line : List Char), output.length ≤ i → input[i]? = some line → ∀ c ∈ line, isBlank c

end Lines

section Ends

/-- Normalized text has no carriage return. -/
theorem normalizeEnds_noReturn (text : List Char) : '\r' ∉ normalizeEnds text := by
  induction text using normalizeEnds.induct with
  | case1 => simp [normalizeEnds]
  | case2 rest ih => simpa [normalizeEnds] using ih
  | case3 rest hrest ih =>
    rw [normalizeEnds.eq_3 rest hrest]
    simpa using ih
  | case4 c rest hpair hreturn ih =>
    rw [normalizeEnds.eq_4 c rest hpair hreturn]
    simpa using ⟨fun h => hreturn h.symm, ih⟩

/-- A text without carriage returns is normalized. -/
theorem normalizeEnds_of_noReturn {text : List Char} (h : '\r' ∉ text) : normalizeEnds text = text := by
  induction text using normalizeEnds.induct with
  | case1 => rfl
  | case2 rest ih => exact absurd List.mem_cons_self h
  | case3 rest hrest ih => exact absurd List.mem_cons_self h
  | case4 c rest hpair hreturn ih =>
    rw [normalizeEnds.eq_4 c rest hpair hreturn, ih (fun hmem => h (List.mem_cons_of_mem c hmem))]

/-- No line holds a line end. -/
theorem documentLines_noEnds {text : String} {line : List Char} (h : line ∈ documentLines text) :
    '\n' ∉ line ∧ '\r' ∉ line :=
  (mem_splitOn h).imp_right fun hmem hreturn => normalizeEnds_noReturn text.toList (hmem '\r' hreturn)

end Ends

section TidyLine

variable (line : List Char)

/-- Blanks become spaces. -/
theorem eq_space_of_mem_expandTabs {lead : List Char} (h : ∀ c ∈ lead, isBlank c) :
    ∀ c ∈ expandTabs lead, c = ' ' := by
  intro c hc
  obtain ⟨d, hd, hmem⟩ := List.mem_flatMap.mp hc
  have hblank := h d hd
  by_cases htab : d = '\t'
  · simpa [htab] using hmem
  · have hspace : d = ' ' := by simpa [isBlank, htab] using hblank
    simpa [hspace] using hmem

/-- What has no tab stays as it is. -/
theorem expandTabs_of_noTab {lead : List Char} (h : '\t' ∉ lead) : expandTabs lead = lead := by
  induction lead with
  | nil => rfl
  | cons c rest ih =>
    have hc : c ≠ '\t' := fun heq => h (heq ▸ List.mem_cons_self)
    have hrest := ih fun hmem => h (List.mem_cons_of_mem c hmem)
    rw [expandTabs] at hrest ⊢
    rw [List.flatMap_cons, hrest, if_neg hc, List.singleton_append]

/-- The body of a line starts at its first character that is no blank. -/
theorem drop_lead : line.drop (line.takeWhile isBlank).length = line.dropWhile isBlank := by
  conv_lhs => arg 2; rw [← @List.takeWhile_append_dropWhile _ isBlank line]
  exact List.drop_left

/-- A tidied line is spaces and the body of the line, with no blanks behind it. -/
theorem tidyLine_eq : ∃ spaces : List Char, (∀ c ∈ spaces, c = ' ') ∧
    tidyLine line = (spaces ++ line.dropWhile isBlank).rdropWhile isBlank := by
  refine ⟨expandTabs (line.takeWhile isBlank), ?_, ?_⟩
  · exact eq_space_of_mem_expandTabs fun c hc => List.mem_takeWhile_imp hc
  · rw [tidyLine, drop_lead]

variable {line}

/-- A tidied line is tidy. -/
theorem isTidyLine_tidyLine (h : '\n' ∉ line ∧ '\r' ∉ line) : IsTidyLine (tidyLine line) := by
  obtain ⟨spaces, hspaces, htidy⟩ := tidyLine_eq line
  have hblank : ∀ c ∈ spaces, isBlank c := fun c hc => by rw [hspaces c hc]; rfl
  have hmem {c : Char} (hc : c ∈ tidyLine line) : c = ' ' ∨ c ∈ line := by
    rw [htidy] at hc
    rcases List.mem_append.mp (( List.rdropWhile_prefix isBlank _).subset hc) with hspace | hbody
    · exact Or.inl (hspaces c hspace)
    · exact Or.inr ((List.dropWhile_suffix isBlank).subset hbody)
  constructor
  · intro htab
    rw [htidy] at htab
    have hlead := (takeWhile_prefix_takeWhile ( List.rdropWhile_prefix isBlank _)).subset htab
    rw [List.takeWhile_append_of_pos hblank, takeWhile_dropWhile, List.append_nil] at hlead
    exact absurd (hspaces _ hlead) (by decide)
  · rw [htidy]
    exact List.rdropWhile_last_not isBlank _
  · exact ⟨fun hc => (hmem hc).elim (by decide) h.1, fun hc => (hmem hc).elim (by decide) h.2⟩

/-- The empty line is tidy. -/
theorem isTidyLine_nil : IsTidyLine [] := ⟨by simp, fun hne => absurd rfl hne, by simp⟩

/-- A tidy line is left as it is. -/
theorem IsTidyLine.tidyLine_eq_self (h : IsTidyLine line) : tidyLine line = line := by
  rw [tidyLine, expandTabs_of_noTab h.lead, drop_lead, List.takeWhile_append_dropWhile]
  exact List.rdropWhile_eq_self_iff.mpr h.trail

/-- Tidying changes only the blanks of a line. -/
theorem withoutBlanks_tidyLine (line : List Char) : withoutBlanks (tidyLine line) = withoutBlanks line := by
  obtain ⟨spaces, hspaces, htidy⟩ := tidyLine_eq line
  have hlost {blanks : List Char} (h : ∀ c ∈ blanks, isBlank c) : blanks.filter (fun c => !isBlank c) = [] := by
    rw [List.filter_eq_nil_iff]
    intro c hc
    simp [h c hc]
  have hline : withoutBlanks line = (line.dropWhile isBlank).filter fun c => !isBlank c := by
    conv_lhs => rw [withoutBlanks, ← @List.takeWhile_append_dropWhile _ isBlank line, List.filter_append]
    rw [hlost fun c hc => List.mem_takeWhile_imp hc, List.nil_append]
  rw [hline, withoutBlanks, htidy, filter_rdropWhile, List.filter_append, hlost, List.nil_append]
  exact fun c hc => by rw [hspaces c hc]; rfl

/-- Tidying changes a line only in front of its first and behind its last character that is no blank. -/
theorem trimBlanks_tidyLine (line : List Char) : trimBlanks (tidyLine line) = trimBlanks line := by
  obtain ⟨spaces, hspaces, htidy⟩ := tidyLine_eq line
  have hblank : ∀ c ∈ spaces, isBlank c := fun c hc => by rw [hspaces c hc]; rfl
  rw [trimBlanks, htidy, dropWhile_rdropWhile, List.rdropWhile_idempotent, List.dropWhile_append_of_pos hblank,
    List.dropWhile_idempotent, trimBlanks]

end TidyLine

section PopEmpty

variable (lines : List (List Char))

/-- What is popped is empty. -/
theorem popEmpty_append : ∃ k, popEmpty lines ++ List.replicate k [] = lines := by
  fun_induction popEmpty lines with
  | case1 lines hpop ih =>
    obtain ⟨k, hk⟩ := ih
    refine ⟨k + 1, ?_⟩
    rw [List.replicate_succ', ← List.append_assoc, hk]
    exact List.dropLast_append_getLast? [] hpop.2
  | case2 lines hlast => exact ⟨0, List.append_nil lines⟩

/-- At the end there is nothing left to pop. -/
theorem popEmpty_last : ¬ (1 < (popEmpty lines).length ∧ (popEmpty lines).getLast? = some []) := by
  fun_induction popEmpty lines with
  | case1 lines hpop ih => exact ih
  | case2 lines hlast => exact hlast

variable {lines}

/-- The only line is not popped. -/
theorem popEmpty_ne_nil (h : lines ≠ []) : popEmpty lines ≠ [] := by
  fun_induction popEmpty lines with
  | case1 lines hpop ih =>
    refine ih fun hnil => ?_
    have hlength := congrArg List.length hnil
    rw [List.length_dropLast, List.length_nil] at hlength
    omega
  | case2 lines hlast => exact h

/-- Where there is nothing to pop, the lines stay. -/
theorem popEmpty_of_last (h : ¬ (1 < lines.length ∧ lines.getLast? = some [])) : popEmpty lines = lines := by
  rw [popEmpty, if_neg h]

/-- An empty line behind others is popped. -/
theorem popEmpty_concat (h : lines ≠ []) : popEmpty (lines ++ [[]]) = popEmpty lines := by
  have hlength := List.length_pos_iff.mpr h
  have hpop : 1 < (lines ++ [[]]).length ∧ (lines ++ [[]]).getLast? = some [] := by
    constructor
    · rw [List.length_append, List.length_singleton]
      omega
    · exact List.getLast?_concat
  rw [popEmpty, if_pos hpop, List.dropLast_concat]

end PopEmpty

section Document

/-- The text of lines, with a newline behind each. -/
def joinLines (lines : List (List Char)) : String := String.ofList (['\n'].intercalate lines ++ ['\n'])

variable {lines : List (List Char)}

/-- The lines of tidy lines are these and an empty one. -/
theorem IsTidy.splitOn_joinLines (h : IsTidy lines) : (joinLines lines).toList.splitOn '\n' = lines ++ [[]] := by
  rw [joinLines, String.toList_ofList]
  exact splitOn_intercalate_concat h.nonempty fun line hline => (h.tidy line hline).ends.1

/-- Tidy lines that are joined are read again. -/
theorem IsTidy.documentLines_joinLines (h : IsTidy lines) : documentLines (joinLines lines) = lines ++ [[]] := by
  have hnoReturn : '\r' ∉ (joinLines lines).toList := by
    intro hmem
    rw [joinLines, String.toList_ofList, List.mem_append] at hmem
    rcases hmem with hlines | hend
    · rcases mem_intercalate hlines with hseparator | ⟨line, hline, hreturn⟩
      · exact absurd hseparator (by decide)
      · exact (h.tidy line hline).ends.2 hreturn
    · exact absurd hend (by decide)
  rw [documentLines, normalizeEnds_of_noReturn hnoReturn, h.splitOn_joinLines]

/-- Tidy lines are left as they are. -/
theorem IsTidy.tidyDocument_joinLines (h : IsTidy lines) : tidyDocument (joinLines lines) = joinLines lines := by
  have hsame : (lines ++ [[]]).map tidyLine = lines ++ [[]] := by
    rw [List.map_append, List.map_congr_left fun line hline => (h.tidy line hline).tidyLine_eq_self, List.map_id']
    rfl
  rw [tidyDocument, h.documentLines_joinLines, hsame, popEmpty_concat h.nonempty, popEmpty_of_last h.last, joinLines]

/-- The lines of a tidied text are tidy. -/
theorem isTidy_popEmpty (text : String) : IsTidy (popEmpty ((documentLines text).map tidyLine)) := by
  have hne : (documentLines text).map tidyLine ≠ [] := by simp [documentLines]
  refine ⟨popEmpty_ne_nil hne, fun line hline => ?_, popEmpty_last _⟩
  obtain ⟨k, hpopped⟩ := popEmpty_append ((documentLines text).map tidyLine)
  have hmem : line ∈ (documentLines text).map tidyLine := hpopped ▸ List.mem_append_left _ hline
  obtain ⟨old, hold, rfl⟩ := List.mem_map.mp hmem
  exact isTidyLine_tidyLine (documentLines_noEnds hold)

/-- Between the lines only stands a newline, so there is none behind the last line. -/
theorem IsTidy.getLast_ne (h : IsTidy lines) : (['\n'].intercalate lines).getLast? ≠ some '\n' := by
  obtain ⟨front, last, rfl⟩ := (List.eq_nil_or_concat' lines).resolve_left h.nonempty
  have hnoNewline := (h.tidy last (by simp)).ends.1
  by_cases hempty : last = []
  · -- The last line is empty, so it is the only one.
    have hfront : front = [] := by
      by_contra hfront
      have hlength := List.length_pos_iff.mpr hfront
      refine h.last ⟨?_, ?_⟩
      · rw [List.length_append, List.length_singleton]
        omega
      · rw [List.getLast?_concat, hempty]
    rw [hfront, hempty]
    decide
  · obtain ⟨before, hjoin⟩ := suffix_intercalate_concat ['\n'] front last
    rw [← hjoin, List.getLast?_append_of_ne_nil before hempty]
    exact fun hnewline => hnoNewline (List.mem_of_getLast? hnewline)

/-- What is tidied is the lines with their blanks changed, and the blank lines at the end are gone. -/
theorem onlyBlanksChange_popEmpty (lines : List (List Char)) :
    OnlyBlanksChange lines (popEmpty (lines.map tidyLine)) := by
  obtain ⟨k, hpopped⟩ := popEmpty_append (lines.map tidyLine)
  have hlength := congrArg List.length hpopped
  rw [List.length_append, List.length_replicate, List.length_map] at hlength
  constructor
  · omega
  · intro i line hline
    have hmap : (lines.map tidyLine)[i]? = some line := by
      rw [← hpopped, List.getElem?_append_left (List.getElem?_eq_some_iff.mp hline).1, hline]
    rw [List.getElem?_map] at hmap
    obtain ⟨old, hold, rfl⟩ := Option.map_eq_some_iff.mp hmap
    exact ⟨old, hold, withoutBlanks_tidyLine old, trimBlanks_tidyLine old⟩
  · intro i line hi hline
    have hmap : (lines.map tidyLine)[i]? = some (tidyLine line) := by rw [List.getElem?_map, hline, Option.map_some]
    rw [← hpopped, List.getElem?_append_right hi] at hmap
    have hempty : tidyLine line = [] := List.eq_of_mem_replicate (List.mem_of_getElem? hmap)
    have hblank : withoutBlanks line = [] := by rw [← withoutBlanks_tidyLine, hempty, withoutBlanks, List.filter_nil]
    intro c hc
    simpa using List.filter_eq_nil_iff.mp hblank c hc

/-- Every text is tidied into one that is left as it is: it ends in one newline, its lines are tidy, and only blanks
of the text have changed. -/
theorem tidyDocument_safe (text : String) :
    tidyDocument (tidyDocument text) = tidyDocument text ∧
      (∃ body, (tidyDocument text).toList = body ++ ['\n'] ∧ body.getLast? ≠ some '\n') ∧
      (∀ line ∈ (tidyDocument text).toList.splitOn '\n', IsTidyLine line) ∧
      OnlyBlanksChange (documentLines text) ((tidyDocument text).toList.splitOn '\n').dropLast := by
  have htidy := isTidy_popEmpty text
  have hjoin : tidyDocument text = joinLines (popEmpty ((documentLines text).map tidyLine)) := rfl
  refine ⟨?_, ?_, ?_, ?_⟩
  · rw [hjoin, htidy.tidyDocument_joinLines]
  · exact ⟨_, String.toList_ofList, htidy.getLast_ne⟩
  · rw [hjoin, htidy.splitOn_joinLines]
    exact List.forall_mem_append.mpr ⟨htidy.tidy, List.forall_mem_singleton.mpr isTidyLine_nil⟩
  · rw [hjoin, htidy.splitOn_joinLines, List.dropLast_concat]
    exact onlyBlanksChange_popEmpty (documentLines text)

example : tidyDocument "\tx \r\ry\n \n" = "    x\n\ny\n" := by decide +kernel

end Document

end ZeroCode.Web
