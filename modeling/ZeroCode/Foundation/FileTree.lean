import Mathlib.Data.List.Infix

/-!
# Directory trees

A tree is the listing of its root directory, in any order. It is observed path by path,
and so are the writes to it: an archive that names every directory before what is in it,
extracted where none of its names is taken, adds exactly the tree it was made from.
-/

namespace ZeroCode.Foundation

variable {N F D : Type*}

/-- What is at a path: a file or a directory, with its data. -/
inductive Node (F D : Type*)
  | file (data : F)
  | dir (data : D)
  deriving DecidableEq, Repr

/-- The entries of a directory, in the order in which they are listed. -/
inductive Listing (N F D : Type*)
  | nil
  | file (name : N) (data : F) (rest : Listing N F D)
  | dir (name : N) (data : D) (children rest : Listing N F D)
  deriving DecidableEq, Repr

namespace Listing

/-- The names in a directory. -/
def names : Listing N F D → List N
  | .nil => []
  | .file name _ rest => name :: rest.names
  | .dir name _ _ rest => name :: rest.names

/-- No directory lists a name twice. -/
def Distinct : Listing N F D → Prop
  | .nil => True
  | .file name _ rest => name ∉ rest.names ∧ rest.Distinct
  | .dir name _ children rest => name ∉ rest.names ∧ children.Distinct ∧ rest.Distinct

/-- The entries of an archive, every directory before what is in it. -/
def entries (dirPath : List N) : Listing N F D → List (List N × Node F D)
  | .nil => []
  | .file name data rest => (dirPath ++ [name], .file data) :: rest.entries dirPath
  | .dir name data children rest =>
    (dirPath ++ [name], .dir data) :: (children.entries (dirPath ++ [name]) ++ rest.entries dirPath)

/-- The listing without the names that are not kept; directories are kept whole. -/
def filterNames (keep : N → Bool) : Listing N F D → Listing N F D
  | .nil => .nil
  | .file name data rest => if keep name then .file name data (rest.filterNames keep) else rest.filterNames keep
  | .dir name data children rest =>
    if keep name then .dir name data children (rest.filterNames keep) else rest.filterNames keep

/-- The names that are left were kept, and were there. -/
theorem mem_names_filterNames {keep : N → Bool} {t : Listing N F D} {name : N}
    (h : name ∈ (t.filterNames keep).names) : keep name = true ∧ name ∈ t.names := by
  induction t with
  | nil => simp [filterNames, names] at h
  | file other data rest ih | dir other data _ rest _ ih =>
    rw [filterNames] at h
    split at h
    · rcases List.mem_cons.mp h with rfl | h
      · exact ⟨‹_›, List.mem_cons_self⟩
      · exact ⟨(ih h).1, List.mem_cons_of_mem _ (ih h).2⟩
    · exact ⟨(ih h).1, List.mem_cons_of_mem _ (ih h).2⟩

/-- Leaving names out keeps the others distinct. -/
theorem Distinct.filterNames {t : Listing N F D} (h : t.Distinct) (keep : N → Bool) :
    (t.filterNames keep).Distinct := by
  induction t with
  | nil => trivial
  | file name data rest ih =>
    rw [Listing.filterNames]
    split
    · exact ⟨fun hmem => h.1 (mem_names_filterNames hmem).2, ih h.2⟩
    · exact ih h.2
  | dir name data children rest _ ih =>
    rw [Listing.filterNames]
    split
    · exact ⟨fun hmem => h.1 (mem_names_filterNames hmem).2, h.2.1, ih h.2.2⟩
    · exact ih h.2.2

variable [DecidableEq N]

/-- What is at a path below the root. -/
def lookup : Listing N F D → List N → Option (Node F D)
  | _, [] => none
  | .nil, _ :: _ => none
  | .file name data rest, x :: q =>
    if x = name then
      match q with
      | [] => some (.file data)
      | _ :: _ => none
    else rest.lookup (x :: q)
  | .dir name data children rest, x :: q =>
    if x = name then
      match q with
      | [] => some (.dir data)
      | y :: q => children.lookup (y :: q)
    else rest.lookup (x :: q)

/-- A new path, with the directories on the way. -/
def chain (parent : D) : List N → Node F D → Listing N F D
  | [], _ => .nil
  | [name], .file data => .file name data .nil
  | [name], .dir data => .dir name data .nil .nil
  | name :: next :: q, node => .dir name parent (chain parent (next :: q) node) .nil

/-- Write a node at a path, creating missing directories on the way. A file is not replaced by a
directory, a directory not by a file, and nothing is below a file. -/
def put (parent : D) : Listing N F D → List N → Node F D → Option (Listing N F D)
  | _, [], _ => none
  | .nil, x :: q, node => some (chain parent (x :: q) node)
  | .file name data rest, x :: q, node =>
    if x = name then
      match q, node with
      | [], .file data' => some (.file name data' rest)
      | _, _ => none
    else (rest.put parent (x :: q) node).map (.file name data)
  | .dir name data children rest, x :: q, node =>
    if x = name then
      match q, node with
      | [], .dir data' => some (.dir name data' children rest)
      | [], .file _ => none
      | y :: q, node => (children.put parent (y :: q) node).map fun children => .dir name data children rest
    else (rest.put parent (x :: q) node).map (.dir name data children)

/-- Extract the entries in order, up to the first one that fails. -/
def extract (parent : D) : Listing N F D → List (List N × Node F D) → Listing N F D × Bool
  | t, [] => (t, true)
  | t, (path, node) :: rest =>
    match t.put parent path node with
    | some t => t.extract parent rest
    | none => (t, false)

-- the equations are generated here once, the lemmas below all ask for them
attribute [local simp] lookup put in
/-- The root itself is not an entry. -/
@[simp]
theorem lookup_root (t : Listing N F D) : t.lookup [] = none := by
  cases t <;> rfl

/-- Nothing is in an empty directory. -/
@[simp]
theorem lookup_nil (q : List N) : (Listing.nil : Listing N F D).lookup q = none := by
  cases q <;> rfl

/-- Below a directory. -/
theorem lookup_dir_below (name : N) (data : D) (children rest : Listing N F D) {q : List N} (h : q ≠ []) :
    (Listing.dir name data children rest).lookup (name :: q) = children.lookup q := by
  cases q with
  | nil => exact absurd rfl h
  | cons y q => simp [lookup]

/-- Writing below a directory. -/
theorem put_dir_below (parent : D) (name : N) (data : D) (children rest : Listing N F D) {q : List N} (h : q ≠ [])
    (node : Node F D) :
    (Listing.dir name data children rest).put parent (name :: q) node =
      (children.put parent q node).map fun children => .dir name data children rest := by
  cases q with
  | nil => exact absurd rfl h
  | cons y q => simp [put]

/-- Nothing is below a file. -/
theorem lookup_below_file {t : Listing N F D} {name : N} {data : F} (h : t.lookup [name] = some (.file data))
    {q : List N} (hq : q ≠ []) : t.lookup (name :: q) = none := by
  cases q with
  | nil => exact absurd rfl hq
  | cons y q =>
    induction t with
    | nil => rfl
    | file other _ rest ih | dir other _ _ rest _ ih =>
      by_cases hname : name = other
      · subst hname
        simp_all [lookup]
      · simp_all [lookup]

/-- Beside a file. -/
theorem lookup_file_beside {name x : N} (h : x ≠ name) (data : F) (rest : Listing N F D) (q : List N) :
    (Listing.file name data rest).lookup (x :: q) = rest.lookup (x :: q) := by
  simp [lookup, h]

/-- Beside a directory. -/
theorem lookup_dir_beside {name x : N} (h : x ≠ name) (data : D) (children rest : Listing N F D) (q : List N) :
    (Listing.dir name data children rest).lookup (x :: q) = rest.lookup (x :: q) := by
  simp [lookup, h]

/-- Nothing is found under a name that is not listed. -/
theorem lookup_eq_none {t : Listing N F D} {name : N} (h : name ∉ t.names) (q : List N) :
    t.lookup (name :: q) = none := by
  induction t with
  | nil => rfl
  | file other data rest ih =>
    rw [names, List.mem_cons, not_or] at h
    rw [lookup_file_beside h.1, ih h.2]
  | dir other data children rest _ ih =>
    rw [names, List.mem_cons, not_or] at h
    rw [lookup_dir_beside h.1, ih h.2]

/-- Below a kept name nothing changes, and there is nothing below the others. -/
theorem lookup_filterNames (keep : N → Bool) (t : Listing N F D) (name : N) (q : List N) :
    (t.filterNames keep).lookup (name :: q) = if keep name then t.lookup (name :: q) else none := by
  induction t with
  | nil => simp [filterNames, lookup]
  | file other data rest ih | dir other data _ rest _ ih =>
    rw [filterNames]
    by_cases hkeep : keep other = true <;> by_cases hname : name = other <;> simp_all [lookup]

/-- A new single name. -/
theorem lookup_chain_singleton (parent : D) (name : N) (node : Node F D) (q : List N) :
    (chain parent [name] node).lookup q = if q = [name] then some node else none := by
  cases node <;> cases q with
  | nil => simp
  | cons x q =>
    by_cases hx : x = name <;> cases q <;> simp [chain, lookup, hx]

/-- A directory or the root is at the path. -/
def IsDir (t : Listing N F D) (path : List N) : Prop := path = [] ∨ ∃ data, t.lookup path = some (.dir data)

/-- The listing shows one more node, and is otherwise unchanged. -/
def Adds (t t' : Listing N F D) (path : List N) (node : Node F D) : Prop :=
  ∀ q, t'.lookup q = if q = path then some node else t.lookup q

/-- A directory elsewhere is still there. -/
theorem Adds.isDir {t t' : Listing N F D} {path dirPath : List N} {node : Node F D} (h : t.Adds t' path node)
    (there : t.IsDir dirPath) (hother : dirPath ≠ path) : t'.IsDir dirPath := by
  rcases there with hroot | ⟨data, hdata⟩
  · exact Or.inl hroot
  · exact Or.inr ⟨data, by rw [h, if_neg hother, hdata]⟩

/-- What is added behind a file is added to the listing. -/
theorem Adds.file {t t' : Listing N F D} {x name : N} {p : List N} {node : Node F D} (h : t.Adds t' (x :: p) node)
    (hx : x ≠ name) (data : F) : (Listing.file name data t).Adds (.file name data t') (x :: p) node := by
  intro q
  cases q with
  | nil => simp
  | cons y q =>
    by_cases hy : y = name
    · subst hy
      simp [lookup, hx.symm]
    · rw [lookup_file_beside hy, lookup_file_beside hy, h]

/-- What is added behind a directory is added to the listing. -/
theorem Adds.dir {t t' : Listing N F D} {x name : N} {p : List N} {node : Node F D} (h : t.Adds t' (x :: p) node)
    (hx : x ≠ name) (data : D) (children : Listing N F D) :
    (Listing.dir name data children t).Adds (.dir name data children t') (x :: p) node := by
  intro q
  cases q with
  | nil => simp
  | cons y q =>
    by_cases hy : y = name
    · subst hy
      simp [lookup, hx.symm]
    · rw [lookup_dir_beside hy, lookup_dir_beside hy, h]

/-- What is added in a directory is added to the listing. -/
theorem Adds.below {t t' : Listing N F D} {p : List N} {node : Node F D} (h : t.Adds t' p node) (hp : p ≠ [])
    (name : N) (data : D) (rest : Listing N F D) :
    (Listing.dir name data t rest).Adds (.dir name data t' rest) (name :: p) node := by
  intro q
  cases q with
  | nil => simp
  | cons y q =>
    by_cases hy : y = name
    · subst hy
      cases q with
      | nil => simp [lookup, hp.symm]
      | cons z q => simpa [lookup] using h (z :: q)
    · rw [lookup_dir_beside hy, lookup_dir_beside hy, if_neg]
      simp [hy]

/-- Writing a free name in an existing directory adds it and changes nothing else. -/
theorem exists_put {t : Listing N F D} {dirPath : List N} {name : N} (there : t.IsDir dirPath)
    (free : t.lookup (dirPath ++ [name]) = none) (parent : D) (node : Node F D) :
    ∃ t', t.put parent (dirPath ++ [name]) node = some t' ∧ t.Adds t' (dirPath ++ [name]) node := by
  induction t generalizing dirPath with
  | nil =>
    rcases there with rfl | ⟨data, hdata⟩
    · refine ⟨chain parent [name] node, rfl, fun q => ?_⟩
      rw [List.nil_append, lookup_chain_singleton]
      cases q <;> rfl
    · cases dirPath <;> cases hdata
  | file other data rest ih =>
    cases dirPath with
    | nil =>
      have hname : name ≠ other := by
        rintro rfl
        simp [lookup] at free
      obtain ⟨t', hput, hadds⟩ := ih (Or.inl rfl) (by rwa [List.nil_append, lookup_file_beside hname] at free)
      exact ⟨.file other data t', by simpa [put, hname] using hput, hadds.file hname data⟩
    | cons x d =>
      obtain ⟨dirData, hdir⟩ := there.resolve_left (by simp)
      have hx : x ≠ other := by
        rintro rfl
        cases d <;> simp [lookup] at hdir
      rw [lookup_file_beside hx] at hdir
      obtain ⟨t', hput, hadds⟩ :=
        ih (Or.inr ⟨dirData, hdir⟩) (by rwa [List.cons_append, lookup_file_beside hx] at free)
      exact ⟨.file other data t', by simpa [put, hx] using hput, hadds.file hx data⟩
  | dir other data children rest ihChildren ihRest =>
    cases dirPath with
    | nil =>
      have hname : name ≠ other := by
        rintro rfl
        simp [lookup] at free
      obtain ⟨t', hput, hadds⟩ := ihRest (Or.inl rfl) (by rwa [List.nil_append, lookup_dir_beside hname] at free)
      exact ⟨.dir other data children t', by simpa [put, hname] using hput, hadds.dir hname data children⟩
    | cons x d =>
      have hbelow : d ++ [name] ≠ [] := by simp
      by_cases hx : x = other
      · subst hx
        have hthere : children.IsDir d := by
          cases d with
          | nil => exact Or.inl rfl
          | cons y d =>
            obtain ⟨dirData, hdir⟩ := there.resolve_left (by simp)
            exact Or.inr ⟨dirData, by rwa [lookup_dir_below _ _ _ _ (by simp)] at hdir⟩
        obtain ⟨t', hput, hadds⟩ :=
          ihChildren hthere (by rwa [List.cons_append, lookup_dir_below _ _ _ _ hbelow] at free)
        refine ⟨.dir x data t' rest, ?_, hadds.below hbelow x data rest⟩
        rw [List.cons_append, put_dir_below _ _ _ _ _ hbelow, hput, Option.map_some]
      · obtain ⟨dirData, hdir⟩ := there.resolve_left (by simp)
        rw [lookup_dir_beside hx] at hdir
        obtain ⟨t', hput, hadds⟩ :=
          ihRest (Or.inr ⟨dirData, hdir⟩) (by rwa [List.cons_append, lookup_dir_beside hx] at free)
        exact ⟨.dir other data children t', by simpa [put, hx] using hput, hadds.dir hx data children⟩

/-- Extracting one archive behind another. -/
theorem extract_append {parent : D} {t t' : Listing N F D} {first : List (List N × Node F D)}
    (h : t.extract parent first = (t', true)) (second : List (List N × Node F D)) :
    t.extract parent (first ++ second) = t'.extract parent second := by
  induction first generalizing t with
  | nil =>
    cases h
    rfl
  | cons e first ih =>
    obtain ⟨path, node⟩ := e
    rw [List.cons_append, extract]
    rw [extract] at h
    cases hput : t.put parent path node with
    | none => simp [hput] at h
    | some u =>
      rw [hput] at h
      exact ih h

/-- The extracted tree: below a directory it shows the added listing first, elsewhere it is
unchanged. -/
structure Extends (t t' : Listing N F D) (dirPath : List N) (added : Listing N F D) : Prop where
  below : ∀ q, t'.lookup (dirPath ++ q) = (added.lookup q).or (t.lookup (dirPath ++ q))
  elsewhere : ∀ r, ¬ dirPath <+: r → t'.lookup r = t.lookup r

/-- A directory that was there is still there. -/
theorem Extends.isDir {t t' added : Listing N F D} {dirPath path : List N} (h : t.Extends t' dirPath added)
    (there : t.IsDir path) (helsewhere : ¬ dirPath <+: path) : t'.IsDir path := by
  rcases there with hroot | ⟨data, hdata⟩
  · exact Or.inl hroot
  · exact Or.inr ⟨data, by rw [h.elsewhere _ helsewhere, hdata]⟩

/-- A file and what is listed behind it. -/
theorem Extends.file {t u v rest : Listing N F D} {dirPath : List N} {name : N} {data : F}
    (hadds : t.Adds u (dirPath ++ [name]) (.file data)) (h : u.Extends v dirPath rest) (hname : name ∉ rest.names)
    (free : ∀ q, t.lookup (dirPath ++ name :: q) = none) : t.Extends v dirPath (.file name data rest) := by
  refine ⟨fun q => ?_, fun r hr => ?_⟩
  · rw [h.below, hadds]
    cases q with
    | nil => simp
    | cons x q =>
      by_cases hx : x = name
      · subst hx
        rw [lookup_eq_none hname, free]
        cases q <;> simp [lookup]
      · rw [lookup_file_beside hx, if_neg (by simp [hx])]
  · rw [h.elsewhere r hr, hadds, if_neg]
    rintro rfl
    exact hr (List.prefix_append _ _)

omit [DecidableEq N] in
/-- A path beside the new directory does not lead into it. -/
theorem not_prefix_beside {dirPath : List N} {name other : N} (hother : other ≠ name) (q : List N) :
    ¬ dirPath ++ [name] <+: dirPath ++ other :: q := by
  rw [List.prefix_append_right_inj]
  intro hprefix
  exact hother (List.cons_prefix_cons.mp hprefix).1.symm

omit [DecidableEq N] in
/-- The directory itself is not below the new one. -/
theorem not_prefix_above (dirPath : List N) (name : N) : ¬ dirPath ++ [name] <+: dirPath := by
  intro hprefix
  have hlength := hprefix.length_le
  rw [List.length_append, List.length_singleton] at hlength
  omega

/-- A new directory that was filled leaves what is beside it alone. -/
theorem Extends.beside {t u v children : Listing N F D} {dirPath : List N} {name other : N} {data : D}
    (hadds : t.Adds u (dirPath ++ [name]) (.dir data)) (h : u.Extends v (dirPath ++ [name]) children)
    (hother : other ≠ name) (q : List N) : v.lookup (dirPath ++ other :: q) = t.lookup (dirPath ++ other :: q) := by
  rw [h.elsewhere _ (not_prefix_beside hother q), hadds, if_neg (by simp [hother])]

/-- A directory, what is in it, and what is listed behind it. -/
theorem Extends.dir {t u v w children rest : Listing N F D} {dirPath : List N} {name : N} {data : D}
    (hadds : t.Adds u (dirPath ++ [name]) (.dir data)) (inside : u.Extends v (dirPath ++ [name]) children)
    (h : v.Extends w dirPath rest) (hname : name ∉ rest.names)
    (free : ∀ q, t.lookup (dirPath ++ name :: q) = none) : t.Extends w dirPath (.dir name data children rest) := by
  refine ⟨fun q => ?_, fun r hr => ?_⟩
  · rw [h.below]
    cases q with
    | nil =>
      rw [List.append_nil, inside.elsewhere _ (not_prefix_above dirPath name), hadds, if_neg (by simp)]
      simp
    | cons x q =>
      by_cases hx : x = name
      · subst hx
        have hbelow := inside.below q
        rw [hadds, List.append_assoc, List.singleton_append] at hbelow
        rw [lookup_eq_none hname, hbelow, free]
        cases q <;> simp [lookup]
      · rw [lookup_dir_beside hx, inside.beside hadds hx]
  · have hr' : ¬ dirPath ++ [name] <+: r := fun hprefix => hr ((List.prefix_append _ _).trans hprefix)
    rw [h.elsewhere r hr, inside.elsewhere r hr', hadds, if_neg]
    rintro rfl
    exact hr (List.prefix_append _ _)

/-- Extracting the entries of a listing where none of its names is taken adds that listing. -/
theorem exists_extract {added : Listing N F D} (distinct : added.Distinct) {t : Listing N F D} {dirPath : List N}
    (there : t.IsDir dirPath) (free : ∀ name ∈ added.names, ∀ q, t.lookup (dirPath ++ name :: q) = none)
    (parent : D) : ∃ t', t.extract parent (added.entries dirPath) = (t', true) ∧ t.Extends t' dirPath added := by
  induction added generalizing t dirPath with
  | nil => exact ⟨t, rfl, by simp, fun _ _ => rfl⟩
  | file name data rest ih =>
    have hfreeName := free name List.mem_cons_self
    obtain ⟨u, hput, hadds⟩ := exists_put there (hfreeName []) parent (.file data)
    have hfree : ∀ other ∈ rest.names, ∀ q, u.lookup (dirPath ++ other :: q) = none := by
      intro other hother q
      have hne : other ≠ name := fun h => distinct.1 (h ▸ hother)
      rw [hadds, if_neg (by simp [hne]), free other (List.mem_cons_of_mem _ hother)]
    obtain ⟨v, hextract, hextends⟩ := ih distinct.2 (hadds.isDir there (by simp)) hfree
    refine ⟨v, ?_, hextends.file hadds distinct.1 hfreeName⟩
    rw [entries, extract, hput]
    exact hextract
  | dir name data children rest ihChildren ihRest =>
    have hfreeName := free name List.mem_cons_self
    obtain ⟨u, hput, hadds⟩ := exists_put there (hfreeName []) parent (.dir data)
    have hfreeChildren : ∀ other ∈ children.names, ∀ q, u.lookup ((dirPath ++ [name]) ++ other :: q) = none := by
      intro other _ q
      rw [hadds, if_neg (by simp), List.append_assoc, List.singleton_append, hfreeName]
    obtain ⟨v, hchildren, hinside⟩ :=
      ihChildren distinct.2.1 (Or.inr ⟨data, by rw [hadds, if_pos rfl]⟩) hfreeChildren
    have hfree : ∀ other ∈ rest.names, ∀ q, v.lookup (dirPath ++ other :: q) = none := by
      intro other hother q
      have hne : other ≠ name := fun h => distinct.1 (h ▸ hother)
      rw [hinside.beside hadds hne, free other (List.mem_cons_of_mem _ hother)]
    obtain ⟨w, hrest, hextends⟩ :=
      ihRest distinct.2.2 (hinside.isDir (hadds.isDir there (by simp)) (not_prefix_above dirPath name)) hfree
    refine ⟨w, ?_, hinside.dir hadds hextends distinct.1 hfreeName⟩
    rw [entries, extract, hput]
    exact (extract_append hchildren _).trans hrest

end Listing

end ZeroCode.Foundation
