import Mathlib.Data.List.Infix

/-!
# Walking a path

A path is walked one name at a time. Where a name is a symbolic link the walk goes on with
what the link says, from the root or from the directory of the link, and gives up when it
has followed too many of them.
-/

namespace ZeroCode.Foundation

variable {C : Type*}

/-- A component of a path. -/
inductive PathStep (C : Type*)
  | parent
  | name (c : C)
  deriving DecidableEq, Repr

/-- What a symbolic link says. -/
structure Link (C : Type*) where
  absolute : Bool
  steps : List (PathStep C)
  deriving DecidableEq, Repr

/-- Go on up to the first link, or to the end: what is left is the directory of the link, the link and the rest. -/
def walkToLink (links : List C → Option (Link C)) (directory : List C) :
    List (PathStep C) → List C × Option (Link C × List (PathStep C))
  | [] => (directory, none)
  | .parent :: rest => walkToLink links directory.dropLast rest
  | .name c :: rest =>
    match links (directory ++ [c]) with
    | none => walkToLink links (directory ++ [c]) rest
    | some link => (directory, some (link, rest))

/-- Where a path leads from a directory, following at most `budget` links. -/
def walk (links : List C → Option (Link C)) : ℕ → List C → List (PathStep C) → Option (List C)
  | 0, directory, steps =>
    match walkToLink links directory steps with
    | (path, none) => some path
    | (_, some _) => none
  | budget + 1, directory, steps =>
    match walkToLink links directory steps with
    | (path, none) => some path
    | (stop, some (link, rest)) => walk links budget (if link.absolute then [] else stop) (link.steps ++ rest)

/-- No link is at a directory or above it, below the root. -/
def NoLinkAbove (links : List C → Option (Link C)) (directory : List C) : Prop :=
  ∀ above, above <+: directory → above ≠ [] → links above = none

/-- The root has nothing above it. -/
theorem noLinkAbove_nil (links : List C → Option (Link C)) : NoLinkAbove links [] :=
  fun _ habove hne => absurd (List.prefix_nil.mp habove) hne

/-- No link is above the parent of a directory. -/
theorem NoLinkAbove.dropLast {links : List C → Option (Link C)} {directory : List C} (h : NoLinkAbove links directory) :
    NoLinkAbove links directory.dropLast :=
  fun above habove => h above (habove.trans (List.dropLast_prefix directory))

/-- No link is above an entry of a directory that is none itself. -/
theorem NoLinkAbove.append_singleton {links : List C → Option (Link C)} {directory : List C} {c : C}
    (h : NoLinkAbove links directory) (hc : links (directory ++ [c]) = none) : NoLinkAbove links (directory ++ [c]) := by
  intro above habove hne
  rcases List.prefix_concat_iff.mp habove with rfl | habove
  · exact hc
  · exact h above habove hne

/-- No link is above a directory where the walk stops. -/
theorem noLinkAbove_walkToLink {links : List C → Option (Link C)} {directory : List C} {steps : List (PathStep C)}
    (hdirectory : NoLinkAbove links directory) : NoLinkAbove links (walkToLink links directory steps).1 := by
  induction steps generalizing directory with
  | nil => exact hdirectory
  | cons step rest ih =>
    cases step with
    | parent => exact ih hdirectory.dropLast
    | name c =>
      rw [walkToLink]
      cases hlink : links (directory ++ [c]) with
      | none => exact ih (hdirectory.append_singleton hlink)
      | some link => exact hdirectory

/-- A walk ends where no link is left to follow. -/
theorem noLinkAbove_walk {links : List C → Option (Link C)} {budget : ℕ} {directory : List C}
    {steps : List (PathStep C)} {path : List C} (hdirectory : NoLinkAbove links directory)
    (h : walk links budget directory steps = some path) : NoLinkAbove links path := by
  have hstop : NoLinkAbove links (walkToLink links directory steps).1 := noLinkAbove_walkToLink hdirectory
  induction budget generalizing directory steps with
  | zero =>
    rw [walk] at h
    split at h
    · rename_i hreached
      cases h
      rwa [hreached] at hstop
    · cases h
  | succ budget ih =>
    rw [walk] at h
    split at h
    · rename_i hreached
      cases h
      rwa [hreached] at hstop
    · rename_i stop link rest hreached
      rw [hreached] at hstop
      have hfrom : NoLinkAbove links (if link.absolute then [] else stop) := by
        split
        · exact noLinkAbove_nil links
        · exact hstop
      exact ih hfrom h (noLinkAbove_walkToLink hfrom)

/-- A name that is no link leads to itself. -/
theorem walk_name {links : List C → Option (Link C)} {directory : List C} {c : C}
    (h : links (directory ++ [c]) = none) (budget : ℕ) :
    walk links budget directory [.name c] = some (directory ++ [c]) := by
  have hstop : walkToLink links directory [.name c] = (directory ++ [c], none) := by
    rw [walkToLink, h]
    rfl
  cases budget with
  | zero => rw [walk, hstop]
  | succ budget => rw [walk, hstop]

end ZeroCode.Foundation
