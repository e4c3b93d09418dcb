import Mathlib.Data.List.Infix

/-!
# Texts with placeholders

Placeholders are filled by replacing one pattern after the other in the whole text. When
no filled-in value contains a symbol of a pattern, the later replacements see only what
was literal from the start, so the result is the rendering of one parsed template. From
that follows which texts depend on the values at all: those in which a pattern occurs.
-/

namespace ZeroCode.Foundation

variable {α κ : Type*}

/-- A part of a parsed template: a literal symbol, or the place of a value. -/
inductive Piece (α κ : Type*)
  | lit (a : α)
  | value (k : κ)
  deriving DecidableEq

/-- Fill in the values. -/
def render (values : κ → List α) (pieces : List (Piece α κ)) : List α :=
  pieces.flatMap fun
    | .lit a => [a]
    | .value k => values k

/-- The values are not empty and share no symbol with the patterns. -/
structure Fresh (pattern values : κ → List α) : Prop where
  nonempty : ∀ k, values k ≠ []
  fresh : ∀ j k, ∀ a ∈ values j, a ∉ pattern k

/-- Literal symbols are rendered as themselves. -/
@[simp]
theorem render_map_lit (values : κ → List α) (xs : List α) : render values (xs.map .lit) = xs := by
  induction xs with
  | nil => rfl
  | cons a rest ih => simpa [render] using ih

/-- Occurrences of a pattern in the rendered text are those in the literal symbols. -/
theorem prefix_render_iff {values : κ → List α} {p : List α} (nonempty : ∀ k, values k ≠ [])
    (fresh : ∀ k, ∀ a ∈ values k, a ∉ p) (pieces : List (Piece α κ)) :
    p <+: render values pieces ↔ p.map .lit <+: pieces := by
  induction p generalizing pieces with
  | nil => simp
  | cons a p ih =>
    cases pieces with
    | nil => simp [render]
    | cons piece rest =>
      cases piece with
      | lit b =>
        have htail := ih (fun k c hc hp => fresh k c hc (List.mem_cons_of_mem _ hp)) rest
        rw [render, List.flatMap_cons, List.singleton_append, List.cons_prefix_cons, List.map_cons,
          List.cons_prefix_cons, Piece.lit.injEq]
        exact and_congr_right fun _ => htail
      | value k =>
        obtain ⟨b, tail, hvalue⟩ := List.exists_cons_of_ne_nil (nonempty k)
        have hb : a ≠ b := fun hsame =>
          fresh k b (by rw [hvalue]; exact List.mem_cons_self) (hsame ▸ List.mem_cons_self)
        simp [render, hvalue, hb]

/-- An occurrence without a symbol lies on one side of that symbol. -/
theorem infix_append_cons_iff {pattern : List α} {a : α} (ha : a ∉ pattern) (xs ys : List α) :
    pattern <:+: xs ++ a :: ys ↔ pattern <:+: xs ∨ pattern <:+: ys := by
  have hfront {zs : List α} (h : pattern <+: zs ++ a :: ys) : pattern <+: zs := by
    rcases Nat.lt_or_ge zs.length pattern.length with hlong | hshort
    · have hmem : a ∈ pattern := by
        have hat := List.IsPrefix.getElem h hlong
        rw [List.getElem_append_right (le_refl _)] at hat
        simp only [Nat.sub_self, List.getElem_cons_zero] at hat
        exact hat ▸ List.getElem_mem hlong
      exact absurd hmem ha
    · exact List.prefix_of_prefix_length_le h (List.prefix_append zs _) hshort
  constructor
  · intro h
    induction xs with
    | nil =>
      rcases List.infix_cons_iff.mp h with hstart | hrest
      · exact Or.inl (hfront hstart).isInfix
      · exact Or.inr hrest
    | cons b xs ih =>
      rcases List.infix_cons_iff.mp h with hstart | hrest
      · exact Or.inl (hfront hstart).isInfix
      · exact (ih hrest).imp List.infix_cons id
  · rintro (h | h)
    · exact h.trans (List.prefix_append xs _).isInfix
    · exact h.trans ((List.suffix_cons a ys).trans (List.suffix_append xs _)).isInfix

/-- Longer values render a longer text, wherever there is a place for one. -/
theorem length_render_lt {values longer : κ → List α} (h : ∀ k, (values k).length < (longer k).length)
    {pieces : List (Piece α κ)} {k : κ} (hk : .value k ∈ pieces) :
    (render values pieces).length < (render longer pieces).length := by
  have hle : ∀ piece : Piece α κ, (render values [piece]).length ≤ (render longer [piece]).length := by
    intro piece
    cases piece with
    | lit a => simp [render]
    | value j => simpa [render] using (h j).le
  have hsum : ∀ pieces : List (Piece α κ), (render values pieces).length ≤ (render longer pieces).length := by
    intro pieces
    induction pieces with
    | nil => rfl
    | cons piece rest ih =>
      have hpiece := hle piece
      simp only [render, List.flatMap_cons, List.flatMap_nil, List.append_nil, List.length_append] at hpiece ih ⊢
      omega
  obtain ⟨before, after, rfl⟩ := List.append_of_mem hk
  have hbefore := hsum before
  have hafter := hsum after
  have hplace := h k
  simp only [render, List.flatMap_append, List.flatMap_cons, List.length_append] at hbefore hafter ⊢
  omega

/-- Induction along a pass for some patterns: the text is over, starts with one of them, or starts with a symbol that
is kept. -/
theorem scan_induction (patterns : List α → Prop) (hpatterns : ∀ pattern, patterns pattern → pattern ≠ [])
    {motive : List α → Prop} (nil : motive [])
    (hit : ∀ pattern, patterns pattern → ∀ rest, motive rest → motive (pattern ++ rest))
    (miss : ∀ a rest, (∀ pattern, patterns pattern → ¬ pattern <+: a :: rest) → motive rest → motive (a :: rest))
    (xs : List α) : motive xs := by
  induction hlength : xs.length using Nat.strong_induction_on generalizing xs with
  | _ n ih =>
    cases xs with
    | nil => exact nil
    | cons a rest =>
      by_cases hstarts : ∃ pattern, patterns pattern ∧ pattern <+: a :: rest
      · obtain ⟨pattern, hpattern, tail, htail⟩ := hstarts
        have hshorter : tail.length < n := by
          have hpos := List.length_pos_iff.mpr (hpatterns pattern hpattern)
          have hsum := congrArg List.length htail
          rw [List.length_append] at hsum
          omega
        rw [← htail]
        exact hit pattern hpattern tail (ih _ hshorter tail rfl)
      · have hnone : ∀ pattern, patterns pattern → ¬ pattern <+: a :: rest :=
          fun pattern hpattern hprefix => hstarts ⟨pattern, hpattern, hprefix⟩
        exact miss a rest hnone (ih _ (by rw [← hlength]; exact Nat.lt_succ_self _) rest rfl)

/-- Induction along the search for a pattern: the text is over, starts with an occurrence, or
starts with a symbol that is kept. -/
theorem replace_induction {pattern : List α} (hpattern : pattern ≠ []) {motive : List α → Prop} (nil : motive [])
    (hit : ∀ rest, motive rest → motive (pattern ++ rest))
    (miss : ∀ a rest, ¬ pattern <+: a :: rest → motive rest → motive (a :: rest)) (xs : List α) : motive xs := by
  refine scan_induction (fun found => found = pattern) ?_ nil ?_ (fun a rest hmiss => miss a rest (hmiss _ rfl)) xs
  · rintro _ rfl
    exact hpattern
  · rintro _ rfl
    exact hit

variable [DecidableEq α]

/-- Replace the occurrences of a pattern from left to right, after skipping some symbols. -/
def replaceFrom (pattern replacement : List α) : ℕ → List α → List α
  | _, [] => []
  | skip + 1, _ :: rest => replaceFrom pattern replacement skip rest
  | 0, a :: rest =>
    if pattern.isPrefixOf (a :: rest) then
      replacement ++ replaceFrom pattern replacement (pattern.length - 1) rest
    else a :: replaceFrom pattern replacement 0 rest

/-- Skipped symbols are dropped. -/
theorem replaceFrom_skip (pattern replacement : List α) (skip : ℕ) (xs : List α) :
    replaceFrom pattern replacement skip xs = replaceFrom pattern replacement 0 (xs.drop skip) := by
  induction skip generalizing xs with
  | zero => rfl
  | succ skip ih =>
    cases xs with
    | nil => simp [replaceFrom]
    | cons a rest => exact ih rest

/-- An occurrence is replaced, and the search goes on behind it. -/
theorem replaceFrom_hit {pattern : List α} (hpattern : pattern ≠ []) (replacement rest : List α) :
    replaceFrom pattern replacement 0 (pattern ++ rest) = replacement ++ replaceFrom pattern replacement 0 rest := by
  cases pattern with
  | nil => exact absurd rfl hpattern
  | cons a tail =>
    have hprefix : (a :: tail).isPrefixOf (a :: (tail ++ rest)) = true :=
      List.isPrefixOf_iff_prefix.mpr ⟨rest, rfl⟩
    rw [List.cons_append, replaceFrom, if_pos hprefix, replaceFrom_skip, List.length_cons, Nat.add_sub_cancel,
      List.drop_left]

/-- A symbol at which no occurrence starts is kept. -/
theorem replaceFrom_miss {pattern : List α} {a : α} {rest : List α} (h : ¬ pattern <+: a :: rest)
    (replacement : List α) :
    replaceFrom pattern replacement 0 (a :: rest) = a :: replaceFrom pattern replacement 0 rest := by
  rw [replaceFrom, if_neg fun hprefix => h (List.isPrefixOf_iff_prefix.mp hprefix)]

/-- A text without an occurrence stays as it is. -/
theorem replaceFrom_eq_self {pattern xs : List α} (h : ¬ pattern <:+: xs) (replacement : List α) :
    replaceFrom pattern replacement 0 xs = xs := by
  induction xs with
  | nil => rfl
  | cons a rest ih =>
    rw [List.infix_cons_iff, not_or] at h
    rw [replaceFrom_miss h.1, ih h.2]

/-- Where the pattern occurs, the replacement is in the result. -/
theorem mem_replaceFrom_of_occurs {pattern xs : List α} (hpattern : pattern ≠ []) (h : pattern <:+: xs)
    {replacement : List α} {a : α} (ha : a ∈ replacement) : a ∈ replaceFrom pattern replacement 0 xs := by
  induction xs using replace_induction hpattern with
  | nil => exact absurd (List.infix_nil.mp h) hpattern
  | hit rest _ =>
    rw [replaceFrom_hit hpattern]
    exact List.mem_append_left _ ha
  | miss b rest hmiss ih =>
    rw [replaceFrom_miss hmiss]
    exact List.mem_cons_of_mem _ (ih ((List.infix_cons_iff.mp h).resolve_left hmiss))

/-- A symbol that is not in the pattern survives. -/
theorem mem_replaceFrom_of_mem {pattern xs : List α} (hpattern : pattern ≠ []) {a : α} (ha : a ∈ xs)
    (hfresh : a ∉ pattern) (replacement : List α) : a ∈ replaceFrom pattern replacement 0 xs := by
  induction xs using replace_induction hpattern with
  | nil => cases ha
  | hit rest ih =>
    rw [replaceFrom_hit hpattern]
    exact List.mem_append_right _ (ih ((List.mem_append.mp ha).resolve_left hfresh))
  | miss b rest hmiss ih =>
    rw [replaceFrom_miss hmiss]
    rcases List.mem_cons.mp ha with rfl | ha
    · exact List.mem_cons_self
    · exact List.mem_cons_of_mem _ (ih ha)

/-- The symbols of the result come from the text or from the replacement. -/
theorem mem_of_mem_replaceFrom {pattern replacement xs : List α} (hpattern : pattern ≠ []) {a : α}
    (h : a ∈ replaceFrom pattern replacement 0 xs) : a ∈ replacement ∨ a ∈ xs := by
  induction xs using replace_induction hpattern with
  | nil => cases h
  | hit rest ih =>
    rw [replaceFrom_hit hpattern] at h
    rcases List.mem_append.mp h with h | h
    · exact Or.inl h
    · exact (ih h).imp_right (List.mem_append_right _)
  | miss b rest hmiss ih =>
    rw [replaceFrom_miss hmiss] at h
    rcases List.mem_cons.mp h with rfl | h
    · exact Or.inr List.mem_cons_self
    · exact (ih h).imp_right (List.mem_cons_of_mem _)

/-- A part that shares no symbol with the pattern is kept. -/
theorem replaceFrom_append {pattern fresh : List α} (hpattern : pattern ≠ []) (hfresh : ∀ a ∈ fresh, a ∉ pattern)
    (replacement xs : List α) :
    replaceFrom pattern replacement 0 (fresh ++ xs) = fresh ++ replaceFrom pattern replacement 0 xs := by
  induction fresh with
  | nil => rfl
  | cons a fresh ih =>
    have hmiss : ¬ pattern <+: a :: (fresh ++ xs) := by
      cases pattern with
      | nil => exact absurd rfl hpattern
      | cons b tail =>
        intro hprefix
        have hsame := (List.cons_prefix_cons.mp hprefix).1
        exact hfresh a List.mem_cons_self (hsame ▸ List.mem_cons_self)
    rw [List.cons_append, replaceFrom_miss hmiss, ih fun b hb => hfresh b (List.mem_cons_of_mem _ hb),
      List.cons_append]

/-- Replace the patterns of the given placeholders one after the other. -/
def substitute (pattern values : κ → List α) (keys : List κ) (xs : List α) : List α :=
  keys.foldl (fun xs k => replaceFrom (pattern k) (values k) 0 xs) xs

/-- A text in which no pattern occurs stays as it is. -/
theorem substitute_eq_self {pattern values : κ → List α} {keys : List κ} {xs : List α}
    (h : ∀ k ∈ keys, ¬ pattern k <:+: xs) : substitute pattern values keys xs = xs := by
  induction keys with
  | nil => rfl
  | cons k keys ih =>
    rw [substitute, List.foldl_cons, replaceFrom_eq_self (h k List.mem_cons_self)]
    exact ih fun j hj => h j (List.mem_cons_of_mem _ hj)

/-- A symbol of no pattern and of no value is in the result exactly when it is in the text. -/
theorem mem_substitute_iff {pattern values : κ → List α} {a : α} (hpattern : ∀ k, a ∉ pattern k)
    (hvalue : ∀ k, a ∉ values k) {keys : List κ} (hkeys : ∀ k ∈ keys, pattern k ≠ []) (xs : List α) :
    a ∈ substitute pattern values keys xs ↔ a ∈ xs := by
  induction keys generalizing xs with
  | nil => rfl
  | cons k keys ih =>
    have hk := hkeys k List.mem_cons_self
    rw [substitute, List.foldl_cons]
    refine (ih (fun j hj => hkeys j (List.mem_cons_of_mem _ hj)) _).trans ⟨?_, ?_⟩
    · exact fun h => (mem_of_mem_replaceFrom hk h).resolve_left (hvalue k)
    · exact fun h => mem_replaceFrom_of_mem hk h (hpattern k) _

variable [DecidableEq κ]

/-- Mark the places of the given placeholders one after the other. -/
def parsePieces (pattern : κ → List α) (keys : List κ) (pieces : List (Piece α κ)) : List (Piece α κ) :=
  keys.foldl (fun pieces k => replaceFrom ((pattern k).map .lit) [.value k] 0 pieces) pieces

/-- Replacing in the rendered text is marking in the template. -/
theorem replaceFrom_render {pattern values : κ → List α} (h : Fresh pattern values) {k : κ} (hk : pattern k ≠ [])
    (pieces : List (Piece α κ)) :
    replaceFrom (pattern k) (values k) 0 (render values pieces) =
      render values (replaceFrom ((pattern k).map .lit) [.value k] 0 pieces) := by
  have hlit : (pattern k).map (Piece.lit (κ := κ)) ≠ [] := by simpa using hk
  induction pieces using replace_induction hlit with
  | nil => rfl
  | hit rest ih =>
    have hrender : render values ((pattern k).map .lit ++ rest) = pattern k ++ render values rest := by
      conv_rhs => rw [← render_map_lit values (pattern k)]
      exact List.flatMap_append
    rw [hrender, replaceFrom_hit hk, replaceFrom_hit hlit, ih, List.singleton_append, render, render,
      List.flatMap_cons]
  | miss piece rest hmiss ih =>
    rw [replaceFrom_miss hmiss]
    cases piece with
    | lit a =>
      have hmiss' : ¬ pattern k <+: a :: render values rest := by
        intro hprefix
        exact hmiss ((prefix_render_iff h.nonempty (fun j => h.fresh j k) (.lit a :: rest)).mp hprefix)
      change replaceFrom (pattern k) (values k) 0 (a :: render values rest) = a :: render values _
      rw [replaceFrom_miss hmiss', ih]
    | value j =>
      change replaceFrom (pattern k) (values k) 0 (values j ++ render values rest) = values j ++ render values _
      rw [replaceFrom_append hk (h.fresh j k), ih]

/-- Substituting in a rendered text renders the parsed template. -/
theorem substitute_render {pattern values : κ → List α} (h : Fresh pattern values) {keys : List κ}
    (hkeys : ∀ k ∈ keys, pattern k ≠ []) (pieces : List (Piece α κ)) :
    substitute pattern values keys (render values pieces) = render values (parsePieces pattern keys pieces) := by
  induction keys generalizing pieces with
  | nil => rfl
  | cons k keys ih =>
    have hstep := replaceFrom_render h (hkeys k List.mem_cons_self) pieces
    rw [substitute, List.foldl_cons, hstep]
    exact ih (fun j hj => hkeys j (List.mem_cons_of_mem _ hj)) _

/-- Substituting in a text renders the template parsed from it. -/
theorem substitute_eq_render {pattern values : κ → List α} (h : Fresh pattern values) {keys : List κ}
    (hkeys : ∀ k ∈ keys, pattern k ≠ []) (xs : List α) :
    substitute pattern values keys xs = render values (parsePieces pattern keys (xs.map .lit)) := by
  conv_lhs => rw [← render_map_lit values xs]
  exact substitute_render h hkeys _

/-- A marked place stays marked. -/
theorem value_mem_parsePieces {pattern : κ → List α} {keys : List κ} (hkeys : ∀ k ∈ keys, pattern k ≠ [])
    {pieces : List (Piece α κ)} {j : κ} (h : .value j ∈ pieces) : .value j ∈ parsePieces pattern keys pieces := by
  induction keys generalizing pieces with
  | nil => exact h
  | cons k keys ih =>
    refine ih (fun i hi => hkeys i (List.mem_cons_of_mem _ hi)) (mem_replaceFrom_of_mem ?_ h ?_ _)
    · simpa using hkeys k List.mem_cons_self
    · simp

/-- A text in which a pattern occurs has a marked place. -/
theorem exists_value_mem_parsePieces {pattern : κ → List α} {keys : List κ} (hkeys : ∀ k ∈ keys, pattern k ≠ [])
    {xs : List α} {k : κ} (hk : k ∈ keys) (h : pattern k <:+: xs) :
    ∃ j, .value j ∈ parsePieces pattern keys (xs.map .lit) := by
  induction keys with
  | nil => cases hk
  | cons i keys ih =>
    have hkeys' : ∀ k ∈ keys, pattern k ≠ [] := fun k hk => hkeys k (List.mem_cons_of_mem _ hk)
    by_cases hfirst : (pattern i).map Piece.lit <:+: xs.map (Piece.lit (κ := κ))
    · have hi : (pattern i).map (Piece.lit (κ := κ)) ≠ [] := by simpa using hkeys i List.mem_cons_self
      exact ⟨i, value_mem_parsePieces hkeys' (mem_replaceFrom_of_occurs hi hfirst (List.mem_singleton_self _))⟩
    · rcases List.mem_cons.mp hk with rfl | hk
      · exact absurd (h.map _) hfirst
      · have hstep : parsePieces pattern (i :: keys) (xs.map Piece.lit) =
            parsePieces pattern keys (xs.map Piece.lit) := by
          rw [parsePieces, List.foldl_cons, replaceFrom_eq_self hfirst]
          rfl
        rw [hstep]
        exact ih hkeys' hk

/-- Between values and longer ones a text tells the difference exactly when a pattern occurs in
it. -/
theorem substitute_eq_substitute_iff {pattern values longer : κ → List α} (h : Fresh pattern values)
    (h' : Fresh pattern longer) (hlonger : ∀ k, (values k).length < (longer k).length) {keys : List κ}
    (hkeys : ∀ k ∈ keys, pattern k ≠ []) (xs : List α) :
    substitute pattern values keys xs = substitute pattern longer keys xs ↔
      ∀ k ∈ keys, ¬ pattern k <:+: xs := by
  constructor
  · intro hsame k hk hinfix
    obtain ⟨j, hj⟩ := exists_value_mem_parsePieces hkeys hk hinfix
    rw [substitute_eq_render h hkeys, substitute_eq_render h' hkeys] at hsame
    exact (length_render_lt hlonger hj).ne (congrArg List.length hsame)
  · intro hnone
    rw [substitute_eq_self hnone, substitute_eq_self hnone]

end ZeroCode.Foundation
