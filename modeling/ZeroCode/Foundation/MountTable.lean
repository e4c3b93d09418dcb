import Mathlib.Data.List.Find
import Mathlib.Data.List.Infix
import Mathlib.Data.List.TakeWhile

/-!
# Mount tables

A mount namespace as the list of its mounts, the most recent one first. A path shows what
the first mount at or above it shows there, so a mount covers whatever was visible beneath
its mount point before. The table is observed through `resolve` alone: each operation is
described by what every path shows after it.

A mount beneath a shared one is propagated to the other namespaces of its peer group. The
table keeps what was propagated.
-/

namespace ZeroCode.Foundation

/-- A mount: its mount point, the directory of a file system it shows, its flags, and whether other namespaces see
what happens beneath it. -/
structure Mount (C F L : Type*) where
  point : List C
  source : F
  root : List C
  flags : L
  shared : Bool
  deriving DecidableEq, Repr

/-- The mounts of a namespace, the most recent one first, and what its changes propagated to others. -/
structure MountTable (C F L : Type*) where
  mounts : List (Mount C F L)
  propagated : List (Mount C F L)
  deriving DecidableEq, Repr

variable {C F L : Type*} [DecidableEq C]

/-- What the mount shows at a path beneath its mount point. -/
def Mount.position (m : Mount C F L) (p : List C) : F × List C := (m.source, m.root ++ p.drop m.point.length)

/-- The mount with its mount point moved beneath a directory. -/
def Mount.movedBeneath (m : Mount C F L) (directory : List C) : Mount C F L := { m with point := directory ++ m.point }

/-- The mount with its mount point as seen from a directory above it. -/
def Mount.seenFrom (m : Mount C F L) (directory : List C) : Mount C F L :=
  { m with point := m.point.drop directory.length }

namespace MountTable

/-- The mount that a path leads into. -/
def top (t : MountTable C F L) (p : List C) : Option (Mount C F L) := t.mounts.find? fun m => m.point <+: p

/-- The file system and the path in it that a path shows. -/
def resolve (t : MountTable C F L) (p : List C) : Option (F × List C) := (t.top p).map (Mount.position · p)

/-- The mounts attached since the one a path leads into. -/
def since (t : MountTable C F L) (p : List C) : List (Mount C F L) :=
  t.mounts.takeWhile fun m => !decide (m.point <+: p)

/-- The mount a path leads into, and those attached before it. -/
def upTo (t : MountTable C F L) (p : List C) : List (Mount C F L) :=
  t.mounts.dropWhile fun m => !decide (m.point <+: p)

/-- Stop the propagation of whatever happens from now on. -/
def makePrivate (t : MountTable C F L) : MountTable C F L :=
  { t with mounts := t.mounts.map fun m => { m with shared := false } }

/-- Attach the mounts of a tree, of which the last one is at the target. -/
def attach (t : MountTable C F L) (target : List C) (tree : List (Mount C F L)) : MountTable C F L :=
  if (t.top target).any Mount.shared then
    ⟨tree.map (fun m => { m with shared := true }) ++ t.mounts, tree ++ t.propagated⟩
  else { t with mounts := tree ++ t.mounts }

/-- The copy of the mount a source leads into, showing the source at the target. -/
def copyOf (source target : List C) (m : Mount C F L) : Mount C F L :=
  { m with point := target, root := m.root ++ source.drop m.point.length }

/-- The copy of a mount beneath a source, beneath the target. -/
def copyBeneath (source target : List C) (m : Mount C F L) : Mount C F L :=
  { m with point := target ++ m.point.drop source.length }

/-- Show the source at the target, without the mounts beneath it. -/
def bind (t : MountTable C F L) (source target : List C) : Option (MountTable C F L) :=
  (t.top source).map fun m => t.attach target [copyOf source target m]

/-- Show the source at the target, with the mounts beneath it. -/
def rbind (t : MountTable C F L) (source target : List C) : Option (MountTable C F L) :=
  (t.top source).map fun m =>
    t.attach target
      (((t.since source).filter fun x => source <+: x.point).map (copyBeneath source target) ++
        [copyOf source target m])

/-- Make the mount at `newRoot` the root, and move the tree of the old root to `putOld` beneath it. Neither of the two
mounts may be shared. -/
def pivotRoot (t : MountTable C F L) (newRoot putOld : List C) : Option (MountTable C F L) :=
  match t.top newRoot, t.upTo [] with
  | some new, old :: after =>
    if new.point = newRoot ∧ newRoot ≠ [] ∧ newRoot <+: putOld ∧ new.shared = false ∧ old.shared = false then
      some { t with
        mounts :=
          ((t.since []).filter (fun m => !decide (newRoot <+: m.point)) ++ [old]).map
              (·.movedBeneath (putOld.drop newRoot.length)) ++
            ((t.since []).filter fun m => newRoot <+: m.point).map (·.seenFrom newRoot) ++ after }
    else none
  | _, _ => none

/-- Detach the mount at a path, with the mounts beneath it. -/
def detach (t : MountTable C F L) (path : List C) : Option (MountTable C F L) :=
  match t.upTo path with
  | [] => none
  | m :: before =>
    if m.point = path then
      let rest := (t.since path).filter (fun x => !decide (path <+: x.point)) ++ before
      some
        { mounts := rest
          propagated := if (rest.find? fun x => x.point <+: path).any Mount.shared then m :: t.propagated
            else t.propagated }
    else none

variable {t t' : MountTable C F L}

/-- The mounts of a table, split at the one a path leads into. -/
theorem since_append_upTo (t : MountTable C F L) (p : List C) : t.since p ++ t.upTo p = t.mounts :=
  List.takeWhile_append_dropWhile

/-- No mount attached since is above the path. -/
theorem not_prefix_of_mem_since {p : List C} {m : Mount C F L} (h : m ∈ t.since p) : ¬ m.point <+: p := by
  simpa using List.mem_takeWhile_imp h

/-- A path leads into the most recent of the mounts up to it. -/
theorem top_eq_head_upTo (t : MountTable C F L) (p : List C) : t.top p = (t.upTo p).head? := by
  rw [top, upTo, List.find?_eq_head?_dropWhile_not]

/-- A path leads into a mount above it. -/
theorem point_prefix_of_top {p : List C} {m : Mount C F L} (h : t.top p = some m) : m.point <+: p := by
  simpa using List.find?_some h

/-- The table, split at the mount a path leads into. -/
theorem exists_upTo_of_top {p : List C} {m : Mount C F L} (h : t.top p = some m) :
    ∃ before, t.upTo p = m :: before ∧ t.mounts = t.since p ++ m :: before := by
  rw [top_eq_head_upTo] at h
  cases hupTo : t.upTo p with
  | nil => simp [hupTo] at h
  | cons head before =>
    rw [hupTo, List.head?_cons, Option.some.injEq] at h
    subst h
    exact ⟨before, rfl, by rw [← hupTo, since_append_upTo]⟩

/-- Among mounts that are not above the path, the first one above it is not found. -/
theorem find?_eq_none_of_not_prefix {ms : List (Mount C F L)} {p : List C} (h : ∀ m ∈ ms, ¬ m.point <+: p) :
    (ms.find? fun m => m.point <+: p) = none := by
  rw [List.find?_eq_none]
  simpa using h

/-- What is shown does not depend on the propagation. -/
theorem resolve_makePrivate (t : MountTable C F L) (p : List C) : t.makePrivate.resolve p = t.resolve p := by
  simp only [resolve, top, makePrivate, List.find?_map, Option.map_map]
  rfl

/-- The attached tree comes first, whatever was there before. -/
theorem resolve_attach (t : MountTable C F L) (target : List C) (tree : List (Mount C F L)) (p : List C) :
    (t.attach target tree).resolve p =
      ((tree.find? fun m => m.point <+: p).map (Mount.position · p)).or (t.resolve p) := by
  unfold attach
  split
  · rw [resolve, top, List.find?_append, List.find?_map]
    cases htree : tree.find? fun m => decide (m.point <+: p) with
    | none => simp [htree, resolve, top]
    | some m => simp [htree, Mount.position]
  · rw [resolve, top, List.find?_append]
    cases htree : tree.find? fun m => decide (m.point <+: p) with
    | none => simp [resolve, top]
    | some m => simp

/-- Attaching a tree changes nothing outside of it. -/
theorem resolve_attach_of_not_prefix {target p : List C} {tree : List (Mount C F L)}
    (htree : ∀ m ∈ tree, target <+: m.point) (hp : ¬ target <+: p) : (t.attach target tree).resolve p = t.resolve p := by
  rw [resolve_attach, find?_eq_none_of_not_prefix fun m hm hprefix => hp ((htree m hm).trans hprefix)]
  rfl

/-- A single mount covers what is beneath its mount point. -/
theorem resolve_attach_singleton (t : MountTable C F L) (m : Mount C F L) (p : List C) :
    (t.attach m.point [m]).resolve p = if m.point <+: p then some (m.position p) else t.resolve p := by
  rw [resolve_attach]
  by_cases hp : m.point <+: p
  · simp [hp]
  · simp [hp]

omit [DecidableEq C] in
/-- Beneath its mount point, a copy shows what is beneath the source. -/
theorem position_copyOf {source target : List C} {m : Mount C F L} (hm : m.point <+: source) (q : List C) :
    (copyOf source target m).position (target ++ q) = m.position (source ++ q) := by
  simp [copyOf, Mount.position, List.drop_append_of_le_length hm.length_le]

omit [DecidableEq C] in
/-- Beneath its mount point, the copy of a mount beneath the source shows what that mount shows. -/
theorem position_copyBeneath {source target : List C} {m : Mount C F L} (hm : source <+: m.point) (q : List C) :
    (copyBeneath source target m).position (target ++ q) = m.position (source ++ q) := by
  obtain ⟨rest, hrest⟩ := hm
  simp only [copyBeneath, Mount.position, ← hrest, List.drop_left, List.length_append, List.drop_length_add_append]

/-- After a bind, the paths beneath the target show what is beneath the source in the file system of the source. -/
theorem resolve_bind {source target : List C} (h : t.bind source target = some t') (p : List C) :
    t'.resolve p =
      if target <+: p then (t.resolve source).map fun shown => (shown.1, shown.2 ++ p.drop target.length)
      else t.resolve p := by
  obtain ⟨m, htop, rfl⟩ := Option.map_eq_some_iff.mp h
  refine (resolve_attach_singleton t (copyOf source target m) p).trans (if_congr Iff.rfl ?_ rfl)
  rw [resolve, htop]
  simp [copyOf, Mount.position]

omit [DecidableEq C] in
/-- A mount beneath the source is above `source ++ q` exactly when its copy is above `target ++ q`. -/
theorem copyBeneath_above_iff {source q : List C} {m : Mount C F L} (hm : ¬ m.point <+: source) (target : List C) :
    (source <+: m.point ∧ (copyBeneath source target m).point <+: target ++ q) ↔ m.point <+: source ++ q := by
  constructor
  · rintro ⟨⟨rest, hrest⟩, hprefix⟩
    simpa [copyBeneath, ← hrest] using hprefix
  · intro hprefix
    rcases List.prefix_or_prefix_of_prefix hprefix (List.prefix_append source q) with habove | hbeneath
    · exact absurd habove hm
    · obtain ⟨rest, hrest⟩ := hbeneath
      exact ⟨⟨rest, hrest⟩, by simpa [copyBeneath, ← hrest] using hprefix⟩

/-- After a recursive bind, the paths beneath the target show what the paths beneath the source show. -/
theorem resolve_rbind {source target : List C} (h : t.rbind source target = some t') (p : List C) :
    t'.resolve p = if target <+: p then t.resolve (source ++ p.drop target.length) else t.resolve p := by
  obtain ⟨m, htop, rfl⟩ := Option.map_eq_some_iff.mp h
  obtain ⟨before, _, hmounts⟩ := exists_upTo_of_top htop
  split
  · rename_i hp
    obtain ⟨q, rfl⟩ := hp
    have hm : m.point <+: source ++ q := (point_prefix_of_top htop).trans (List.prefix_append source q)
    have hold : t.top (source ++ q) =
        ((t.since source).find? fun x => x.point <+: source ++ q).or (some m) := by
      rw [top, hmounts, List.find?_append, List.find?_cons_of_pos (by simpa using hm)]
    have hbeneath : (((t.since source).filter fun x => source <+: x.point).map (copyBeneath source target)).find?
        (fun x => x.point <+: target ++ q) =
          ((t.since source).find? fun x => x.point <+: source ++ q).map (copyBeneath source target) := by
      rw [List.find?_map, List.find?_filter]
      refine congrArg _ (List.find?_congr fun x hx => ?_)
      rw [Bool.eq_iff_iff]
      simpa using copyBeneath_above_iff (not_prefix_of_mem_since hx) target
    have hroot : [copyOf source target m].find? (fun x => x.point <+: target ++ q) = some (copyOf source target m) :=
      List.find?_cons_of_pos (by simp [copyOf])
    rw [resolve_attach, List.find?_append, hbeneath, hroot, List.drop_left]
    conv_rhs => rw [resolve, hold]
    cases hfound : (t.since source).find? fun x => decide (x.point <+: source ++ q) with
    | none => simp [position_copyOf (point_prefix_of_top htop)]
    | some x =>
      have hx : source <+: x.point :=
        ((copyBeneath_above_iff (not_prefix_of_mem_since (List.mem_of_find?_eq_some hfound)) target).mpr
          (by simpa using List.find?_some hfound)).1
      simp [position_copyBeneath hx]
  · rename_i hp
    refine resolve_attach_of_not_prefix (fun x hx => ?_) hp
    rcases List.mem_append.mp hx with hbeneath | hroot
    · obtain ⟨y, _, rfl⟩ := List.mem_map.mp hbeneath
      exact List.prefix_append _ _
    · rw [List.mem_singleton.mp hroot]
      exact List.prefix_rfl

omit [DecidableEq C] in
/-- Seen from a directory above it, a mount shows the same. -/
theorem position_seenFrom {directory : List C} {m : Mount C F L} (hm : directory <+: m.point) (p : List C) :
    (m.seenFrom directory).position p = m.position (directory ++ p) := by
  obtain ⟨rest, hrest⟩ := hm
  simp only [Mount.seenFrom, Mount.position, ← hrest, List.drop_left, List.length_append, List.drop_length_add_append]

omit [DecidableEq C] in
/-- Seen from a directory above it, a mount is above the same paths. -/
theorem seenFrom_above_iff {directory : List C} {m : Mount C F L} (hm : directory <+: m.point) (p : List C) :
    (m.seenFrom directory).point <+: p ↔ m.point <+: directory ++ p := by
  obtain ⟨rest, hrest⟩ := hm
  simp [Mount.seenFrom, ← hrest]

/-- Below the new root, a path leads into a mount beneath it. -/
theorem top_beneath {newRoot : List C} {new : Mount C F L} (htop : t.top newRoot = some new) (hpoint : new.point = newRoot)
    (hne : newRoot ≠ []) (p : List C) :
    t.top (newRoot ++ p) = ((t.since []).filter fun m => newRoot <+: m.point).find? fun m => m.point <+: newRoot ++ p := by
  obtain ⟨before, _, hmounts⟩ := exists_upTo_of_top htop
  have hnew : new.point <+: newRoot ++ p := hpoint ▸ List.prefix_append newRoot p
  -- the mount of the new root and the later ones are more recent than the old root
  have hsince : t.since [] = t.since newRoot ++ new :: before.takeWhile fun m => !decide (m.point <+: []) := by
    rw [since, hmounts, List.takeWhile_append_of_pos, List.takeWhile_cons_of_pos]
    · simpa [hpoint] using hne
    · intro m hm
      simp only [Bool.not_eq_true', decide_eq_false_iff_not]
      exact fun hnil => not_prefix_of_mem_since hm (hnil.trans (List.nil_prefix))
  have hlater : (t.since newRoot).find? (fun m => m.point <+: newRoot ++ p) =
      ((t.since newRoot).filter fun m => newRoot <+: m.point).find? fun m => m.point <+: newRoot ++ p := by
    rw [List.find?_filter]
    refine List.find?_congr fun m hm => ?_
    rw [Bool.eq_iff_iff]
    simp only [decide_eq_true_eq]
    refine ⟨fun hprefix => ⟨?_, hprefix⟩, fun hboth => hboth.2⟩
    rcases List.prefix_or_prefix_of_prefix hprefix (List.prefix_append newRoot p) with habove | hbeneath
    · exact absurd habove (not_prefix_of_mem_since hm)
    · exact hbeneath
  rw [hsince, List.filter_append, List.filter_cons_of_pos (by simp [hpoint]), List.find?_append,
    List.find?_cons_of_pos (by simpa using hnew), ← hlater, top, hmounts, List.find?_append,
    List.find?_cons_of_pos (by simpa using hnew)]

/-- The mounts after an attachment are those of the tree, with their propagation, and the ones before. -/
theorem exists_attach_mounts (t : MountTable C F L) (target : List C) (tree : List (Mount C F L)) :
    ∃ f : Mount C F L → Mount C F L, (∀ m, (f m).point = m.point) ∧ (∀ m, (f m).position = m.position) ∧
      (t.attach target tree).mounts = tree.map f ++ t.mounts := by
  unfold attach
  split
  · exact ⟨fun m => { m with shared := true }, fun m => rfl, fun m => rfl, rfl⟩
  · exact ⟨id, fun m => rfl, fun m => rfl, by simp⟩

/-- A table is split at the first mount above a path. -/
theorem split_at_first {p : List C} {recent before : List (Mount C F L)} {m : Mount C F L}
    (hmounts : t.mounts = recent ++ m :: before) (hrecent : ∀ x ∈ recent, ¬ x.point <+: p) (hm : m.point <+: p) :
    t.since p = recent ∧ t.upTo p = m :: before := by
  have hall : ∀ x ∈ recent, (!decide (x.point <+: p)) = true := by simpa using hrecent
  constructor
  · rw [since, hmounts, List.takeWhile_append_of_pos hall, List.takeWhile_cons_of_neg (by simpa using hm),
      List.append_nil]
  · rw [upTo, hmounts, List.dropWhile_append_of_pos hall, List.dropWhile_cons_of_neg (by simpa using hm)]

/-- Beneath the new root, every path shows something. -/
theorem exists_resolve_beneath {newRoot : List C} {new : Mount C F L} (htop : t.top newRoot = some new) (p : List C) :
    ∃ m, t.top (newRoot ++ p) = some m := by
  rw [← Option.isSome_iff_exists, top, List.find?_isSome]
  exact ⟨new, List.mem_of_find?_eq_some htop,
    by simpa using (point_prefix_of_top htop).trans (List.prefix_append newRoot p)⟩

/-- What a pivot moves: the tree of the old root, and the mounts beneath the new one. -/
theorem pivotRoot_spec {newRoot putOld : List C} (h : t.pivotRoot newRoot putOld = some t') :
    ∃ new old : Mount C F L, ∃ after, t.top newRoot = some new ∧ new.point = newRoot ∧ newRoot ≠ [] ∧ old.point = [] ∧
      t'.propagated = t.propagated ∧
      t'.mounts =
        ((t.since []).filter fun m => !decide (newRoot <+: m.point)).map
            (·.movedBeneath (putOld.drop newRoot.length)) ++
          old.movedBeneath (putOld.drop newRoot.length) ::
            (((t.since []).filter fun m => newRoot <+: m.point).map (·.seenFrom newRoot) ++ after) := by
  unfold pivotRoot at h
  split at h
  · rename_i new old after htop hupTo
    split at h
    · rename_i hvalid
      have hold : old.point = [] := by
        have hroot : t.top [] = some old := by rw [top_eq_head_upTo, hupTo, List.head?_cons]
        exact List.prefix_nil.mp (point_prefix_of_top hroot)
      cases h
      exact ⟨new, old, after, htop, hvalid.1, hvalid.2.1, hold, rfl, by simp⟩
    · cases h
  · cases h

/-- What is left when the first mount above a path is detached. -/
theorem detach_spec {path : List C} {recent before : List (Mount C F L)} {m : Mount C F L}
    (h : t.detach path = some t') (hmounts : t.mounts = recent ++ m :: before)
    (hrecent : ∀ x ∈ recent, ¬ x.point <+: path) (hm : m.point <+: path) :
    t'.mounts = recent.filter (fun x => !decide (path <+: x.point)) ++ before := by
  obtain ⟨hsince, hupTo⟩ := split_at_first hmounts hrecent hm
  rw [detach, hupTo, hsince] at h
  simp only at h
  split at h
  · cases h
    rfl
  · cases h

/-- Where the old root is detached again from where a pivot moved it, every path shows what was beneath the new root,
whatever was attached elsewhere in between. -/
theorem resolve_detach_pivotRoot {newRoot inner target : List C} {tree : List (Mount C F L)} {pivoted : MountTable C F L}
    (hpivot : t.pivotRoot newRoot (newRoot ++ inner) = some pivoted)
    (htree : ∀ m ∈ tree, ¬ m.point <+: inner ∧ ¬ inner <+: m.point)
    (hdetach : (pivoted.attach target tree).detach inner = some t') (p : List C) :
    t'.resolve p =
      ((tree.find? fun m => m.point <+: p).map (Mount.position · p)).or (t.resolve (newRoot ++ p)) := by
  obtain ⟨new, old, after, htop, hpoint, hne, hold, _, hpivoted⟩ := pivotRoot_spec hpivot
  obtain ⟨f, hfpoint, hfposition, hattached⟩ := exists_attach_mounts pivoted target tree
  rw [List.drop_left] at hpivoted
  rw [hpivoted, ← List.append_assoc] at hattached
  -- the mounts of the old tree are beneath `inner`, and none of them at it but the old root
  have hrecent : ∀ x ∈ tree.map f ++ ((t.since []).filter fun m => !decide (newRoot <+: m.point)).map
      (·.movedBeneath inner), ¬ x.point <+: inner := by
    intro x hx
    rcases List.mem_append.mp hx with hx | hx
    · obtain ⟨m, hm, rfl⟩ := List.mem_map.mp hx
      rw [hfpoint]
      exact (htree m hm).1
    · obtain ⟨m, hm, rfl⟩ := List.mem_map.mp hx
      have hroot : ¬ m.point <+: [] := not_prefix_of_mem_since (List.mem_of_mem_filter hm)
      intro hprefix
      have hlength := hprefix.length_le
      simp only [Mount.movedBeneath, List.length_append] at hlength
      have hpoint : m.point = [] := List.length_eq_zero_iff.mp (by omega)
      exact hroot (hpoint ▸ List.prefix_rfl)
  have hleft := detach_spec hdetach hattached hrecent (by simp [Mount.movedBeneath, hold])
  have hkept : (tree.map f).filter (fun x => !decide (inner <+: x.point)) = tree.map f := by
    rw [List.filter_eq_self]
    intro x hx
    obtain ⟨m, hm, rfl⟩ := List.mem_map.mp hx
    simpa [hfpoint] using (htree m hm).2
  have hgone : (((t.since []).filter fun m => !decide (newRoot <+: m.point)).map (·.movedBeneath inner)).filter
      (fun x => !decide (inner <+: x.point)) = [] := by
    rw [List.filter_eq_nil_iff]
    intro x hx
    obtain ⟨m, _, rfl⟩ := List.mem_map.mp hx
    simp [Mount.movedBeneath]
  rw [List.filter_append, hkept, hgone, List.append_nil] at hleft
  obtain ⟨m, hm⟩ := exists_resolve_beneath htop p
  have hbeneath := top_beneath htop hpoint hne p
  rw [hm] at hbeneath
  have htreeFind : tree.find? ((fun x => decide (x.point <+: p)) ∘ f) = tree.find? fun x => x.point <+: p :=
    List.find?_congr fun x _ => by simp [hfpoint]
  have hseen : ((t.since []).filter fun m => newRoot <+: m.point).find?
      ((fun x => decide (x.point <+: p)) ∘ (·.seenFrom newRoot)) = some m := by
    rw [hbeneath]
    refine List.find?_congr fun x hx => decide_eq_decide.mpr (seenFrom_above_iff ?_ p)
    simpa using (List.mem_filter.mp hx).2
  have hmem : newRoot <+: m.point := by
    simpa using (List.mem_filter.mp (List.mem_of_find?_eq_some hbeneath.symm)).2
  rw [resolve, top, hleft, List.find?_append, List.find?_append, List.find?_map, List.find?_map, htreeFind, hseen, resolve,
    hm]
  cases tree.find? fun x => decide (x.point <+: p) with
  | none => simp [position_seenFrom hmem]
  | some x => simp [hfposition]

/-- No mount is shared. -/
def Private (t : MountTable C F L) : Prop := ∀ m ∈ t.mounts, m.shared = false

omit [DecidableEq C] in
/-- Nothing is shared once the propagation is stopped. -/
theorem private_makePrivate (t : MountTable C F L) : t.makePrivate.Private := by
  intro m hm
  obtain ⟨x, _, rfl⟩ := List.mem_map.mp hm
  rfl

/-- Attaching private mounts to a private table propagates nothing. -/
theorem Private.attach (h : t.Private) (target : List C) {tree : List (Mount C F L)}
    (htree : ∀ m ∈ tree, m.shared = false) :
    (t.attach target tree).Private ∧ (t.attach target tree).propagated = t.propagated := by
  have htop : (t.top target).any Mount.shared = false := by
    cases htop : t.top target with
    | none => rfl
    | some m => exact h m (List.mem_of_find?_eq_some htop)
  rw [MountTable.attach, if_neg (by simp [htop])]
  refine ⟨fun m hm => ?_, rfl⟩
  rcases List.mem_append.mp hm with hm | hm
  · exact htree m hm
  · exact h m hm

/-- A bind in a private table propagates nothing. -/
theorem Private.bind (h : t.Private) {source target : List C} (hbind : t.bind source target = some t') :
    t'.Private ∧ t'.propagated = t.propagated := by
  obtain ⟨m, htop, rfl⟩ := Option.map_eq_some_iff.mp hbind
  refine h.attach target fun x hx => ?_
  rw [List.mem_singleton.mp hx]
  exact h m (List.mem_of_find?_eq_some htop)

/-- A recursive bind in a private table propagates nothing. -/
theorem Private.rbind (h : t.Private) {source target : List C} (hbind : t.rbind source target = some t') :
    t'.Private ∧ t'.propagated = t.propagated := by
  obtain ⟨m, htop, rfl⟩ := Option.map_eq_some_iff.mp hbind
  refine h.attach target fun x hx => ?_
  rcases List.mem_append.mp hx with hx | hx
  · obtain ⟨y, hy, rfl⟩ := List.mem_map.mp hx
    exact h y (List.takeWhile_subset _ (List.mem_of_mem_filter hy))
  · rw [List.mem_singleton.mp hx]
    exact h m (List.mem_of_find?_eq_some htop)

/-- A pivot in a private table propagates nothing. -/
theorem Private.pivotRoot (h : t.Private) {newRoot putOld : List C} (hpivot : t.pivotRoot newRoot putOld = some t') :
    t'.Private ∧ t'.propagated = t.propagated := by
  unfold MountTable.pivotRoot at hpivot
  split at hpivot
  · rename_i new old after htop hupTo
    split at hpivot
    · cases hpivot
      refine ⟨fun m hm => ?_, rfl⟩
      have hsince (x : Mount C F L) (hx : x ∈ t.since []) : x.shared = false := h x (List.takeWhile_subset _ hx)
      have hrest (x : Mount C F L) (hx : x ∈ old :: after) : x.shared = false :=
        h x (List.dropWhile_subset _ (hupTo ▸ hx : x ∈ t.upTo []))
      rcases List.mem_append.mp hm with hm | hm
      · rcases List.mem_append.mp hm with hm | hm
        · obtain ⟨x, hx, rfl⟩ := List.mem_map.mp hm
          rcases List.mem_append.mp hx with hx | hx
          · exact hsince x (List.mem_of_mem_filter hx)
          · exact hrest x (List.mem_singleton.mp hx ▸ List.mem_cons_self)
        · obtain ⟨x, hx, rfl⟩ := List.mem_map.mp hm
          exact hsince x (List.mem_of_mem_filter hx)
      · exact hrest m (List.mem_cons_of_mem _ hm)
    · cases hpivot
  · cases hpivot

/-- A detachment in a private table propagates nothing. -/
theorem Private.detach (h : t.Private) {path : List C} (hdetach : t.detach path = some t') :
    t'.Private ∧ t'.propagated = t.propagated := by
  unfold MountTable.detach at hdetach
  split at hdetach
  · cases hdetach
  · rename_i m before hupTo
    split at hdetach
    · cases hdetach
      have hrest (x : Mount C F L) (hx : x ∈ (t.since path).filter (fun x => !decide (path <+: x.point)) ++ before) :
          x.shared = false := by
        rcases List.mem_append.mp hx with hx | hx
        · exact h x (List.takeWhile_subset _ (List.mem_of_mem_filter hx))
        · exact h x (List.dropWhile_subset _ (hupTo ▸ List.mem_cons_of_mem m hx : x ∈ t.upTo path))
      refine ⟨hrest, if_neg ?_⟩
      cases hparent : ((t.since path).filter (fun x => !decide (path <+: x.point)) ++ before).find?
          fun x => x.point <+: path with
      | none => simp
      | some x => simp [hrest x (List.mem_of_find?_eq_some hparent)]
    · cases hdetach

end MountTable

end ZeroCode.Foundation
