import ZeroCode.Core.Language
import ZeroCode.Foundation.FileTree

/-!
# Packing and restoring the box

After a compile the box is packed without the source file and `stdin`, which are excluded
by name at the top level only. On a cache hit the archive is unpacked into a freshly
staged box. Archives are those of the `tar` crate, a parameter here: what was built is
read back.
-/

namespace ZeroCode.Sandbox

open ZeroCode.Core ZeroCode.Foundation

/-- The name of a directory entry. -/
structure FileName where
  text : String
  valid : text ∉ ["", ".", ".."] ∧ '/' ∉ text.toList ∧ Char.ofNat 0 ∉ text.toList
  deriving DecidableEq

/-- Two names with one text are equal. -/
theorem FileName.text_injective : Function.Injective FileName.text := by
  rintro ⟨text, _⟩ ⟨text', _⟩ h
  cases h
  rfl

/-- The permission bits of a file or directory. -/
abbrev Mode := Fin 4096

/-- A regular file. -/
structure FileData where
  mode : Mode
  content : Bytes
  deriving DecidableEq, Repr

/-- The regular files and directories below `/box`. -/
abbrev BoxListing := Listing FileName FileData Mode

/-- The entries of an archive. -/
abbrev ArchiveEntries := List (List FileName × Node FileData Mode)

/-- A file tree: no directory lists a name twice. -/
structure BoxTree where
  listing : BoxListing
  distinct : listing.Distinct

/-- What is at a path of the tree. -/
def BoxTree.lookup (box : BoxTree) (path : List FileName) : Option (Node FileData Mode) := box.listing.lookup path

/-- The file the sandbox stages next to the source. -/
def stdinFile : FileName := ⟨"stdin", by decide⟩

/-- Where a single compiled program is restored. -/
def progFile : FileName := ⟨"prog", by decide⟩

/-- Append everything below a directory; a path that cannot be read ends the packing. -/
def appendDirAll (readable : List FileName → Bool) (dirPath : List FileName) : BoxListing → Option ArchiveEntries
  | .nil => some []
  | .file name data rest => do
    guard (readable (dirPath ++ [name]) = true)
    let others ← appendDirAll readable dirPath rest
    return (dirPath ++ [name], .file data) :: others
  | .dir name mode children rest => do
    guard (readable (dirPath ++ [name]) = true)
    let inside ← appendDirAll readable (dirPath ++ [name]) children
    let others ← appendDirAll readable dirPath rest
    return (dirPath ++ [name], .dir mode) :: (inside ++ others)

/-- Pack a directory, without the excluded names at its top level. -/
def packDir (readable : List FileName → Bool) (exclude : List String) : BoxListing → Option ArchiveEntries
  | .nil => some []
  | .file name data rest =>
    if exclude.contains name.text then packDir readable exclude rest
    else do
      guard (readable [name] = true)
      let others ← packDir readable exclude rest
      return ([name], .file data) :: others
  | .dir name mode children rest =>
    if exclude.contains name.text then packDir readable exclude rest
    else do
      guard (readable [name] = true)
      let inside ← appendDirAll readable [name] children
      let others ← packDir readable exclude rest
      return ([name], .dir mode) :: (inside ++ others)

/-- The archives of the `tar` crate: building one, and reading its entries up to the first
broken one. -/
structure Tar where
  build : ArchiveEntries → Bytes
  read : Bytes → ArchiveEntries × Bool

/-- The names, contents and modes of an archive are read back as they were written. -/
def Tar.Reproduces (tar : Tar) (archive : ArchiveEntries) : Prop := tar.read (tar.build archive) = (archive, true)

/-- The mode of directories that an archive does not name. -/
def missingDirMode : Mode := 0o755

/-- Extract a blob into a directory; the flag tells whether all of it could be extracted. -/
def unpackInto (tar : Tar) (dir : BoxListing) (blob : Bytes) : BoxListing × Bool :=
  let (archive, whole) := tar.read blob
  let (dir, extracted) := dir.extract missingDirMode archive
  (dir, extracted && whole)

/-- Copy the source and stdin into the empty box; the copies keep the mode of the scratch files. -/
def stage (scratchMode : Mode) (sourceFile : FileName) (sourceCode stdin : Bytes) : Option BoxListing := do
  let box ← Listing.nil.put missingDirMode [sourceFile] (.file ⟨scratchMode, sourceCode⟩)
  box.put missingDirMode [stdinFile] (.file ⟨scratchMode, stdin⟩)

/-- Restore a cached artifact into the box; one that is no archive is the compiled program itself. -/
def restore (tar : Tar) (box : BoxListing) (blob : Bytes) : Option BoxListing :=
  match unpackInto tar box blob with
  | (box, true) => some box
  | (box, false) => box.put missingDirMode [progFile] (.file ⟨0o755, blob⟩)

/-- A successful walk appends all that is below the directory. -/
theorem appendDirAll_eq {readable : List FileName → Bool} {dirPath : List FileName} {dir : BoxListing}
    {archive : ArchiveEntries} (h : appendDirAll readable dirPath dir = some archive) :
    archive = dir.entries dirPath := by
  induction dir generalizing dirPath archive with
  | nil => exact (Option.some.inj h).symm
  | file name data rest ih =>
    simp only [appendDirAll, Option.bind_eq_bind, Option.bind_eq_some_iff, Option.pure_def, Option.some.injEq] at h
    obtain ⟨_, _, others, hothers, rfl⟩ := h
    rw [ih hothers, Listing.entries]
  | dir name mode children rest ihChildren ihRest =>
    simp only [appendDirAll, Option.bind_eq_bind, Option.bind_eq_some_iff, Option.pure_def, Option.some.injEq] at h
    obtain ⟨_, _, inside, hinside, others, hothers, rfl⟩ := h
    rw [ihChildren hinside, ihRest hothers, Listing.entries]

/-- A packed directory has the entries of all that is not excluded. -/
theorem packDir_eq {readable : List FileName → Bool} {exclude : List String} {dir : BoxListing}
    {archive : ArchiveEntries} (h : packDir readable exclude dir = some archive) :
    archive = (dir.filterNames fun name => !exclude.contains name.text).entries [] := by
  induction dir generalizing archive with
  | nil => exact (Option.some.inj h).symm
  | file name data rest ih =>
    rw [packDir] at h
    rw [Listing.filterNames]
    by_cases hexcluded : exclude.contains name.text = true
    · rw [if_pos hexcluded] at h
      rw [if_neg (by simpa using hexcluded)]
      exact ih h
    · rw [if_neg hexcluded] at h
      simp only [Option.bind_eq_bind, Option.bind_eq_some_iff, Option.pure_def, Option.some.injEq] at h
      obtain ⟨_, _, others, hothers, rfl⟩ := h
      rw [ih hothers, if_pos (by simpa using hexcluded), Listing.entries, List.nil_append]
  | dir name mode children rest _ ih =>
    rw [packDir] at h
    rw [Listing.filterNames]
    by_cases hexcluded : exclude.contains name.text = true
    · rw [if_pos hexcluded] at h
      rw [if_neg (by simpa using hexcluded)]
      exact ih h
    · rw [if_neg hexcluded] at h
      simp only [Option.bind_eq_bind, Option.bind_eq_some_iff, Option.pure_def, Option.some.injEq] at h
      obtain ⟨_, _, inside, hinside, others, hothers, rfl⟩ := h
      rw [ih hothers, appendDirAll_eq hinside, if_pos (by simpa using hexcluded), Listing.entries, List.nil_append]

/-- A walk that can read everything succeeds. -/
theorem exists_appendDirAll {readable : List FileName → Bool} (h : ∀ path, readable path = true)
    (dirPath : List FileName) (dir : BoxListing) : ∃ archive, appendDirAll readable dirPath dir = some archive := by
  induction dir generalizing dirPath with
  | nil => exact ⟨[], rfl⟩
  | file name data rest ih =>
    obtain ⟨others, hothers⟩ := ih dirPath
    simp [appendDirAll, h, hothers]
  | dir name mode children rest ihChildren ihRest =>
    obtain ⟨inside, hinside⟩ := ihChildren (dirPath ++ [name])
    obtain ⟨others, hothers⟩ := ihRest dirPath
    simp [appendDirAll, h, hinside, hothers]

/-- A directory that can be read is packed. -/
theorem exists_packDir {readable : List FileName → Bool} (h : ∀ path, readable path = true) (exclude : List String)
    (dir : BoxListing) : ∃ archive, packDir readable exclude dir = some archive := by
  induction dir with
  | nil => exact ⟨[], rfl⟩
  | file name data rest ih =>
    obtain ⟨others, hothers⟩ := ih
    rw [packDir]
    split <;> simp [h, hothers]
  | dir name mode children rest _ ih =>
    obtain ⟨inside, hinside⟩ := exists_appendDirAll h [name] children
    obtain ⟨others, hothers⟩ := ih
    rw [packDir]
    split <;> simp [h, hinside, hothers]

/-- A staged box holds the source and stdin, as files, and nothing else. -/
theorem stage_lookup {scratchMode : Mode} {sourceFile : FileName} {sourceCode stdin : Bytes} {box : BoxListing}
    (h : stage scratchMode sourceFile sourceCode stdin = some box) :
    (∀ name, name = sourceFile ∨ name = stdinFile → ∃ data, box.lookup [name] = some (.file data)) ∧
      ∀ name, ¬ (name = sourceFile ∨ name = stdinFile) → ∀ q, box.lookup (name :: q) = none := by
  by_cases hsame : stdinFile = sourceFile
  · have hbox : box = .file sourceFile ⟨scratchMode, stdin⟩ .nil := by
      simpa [stage, Listing.put, Listing.chain, hsame] using h.symm
    subst hbox
    refine ⟨fun name hname => ⟨⟨scratchMode, stdin⟩, ?_⟩, fun name hname q => ?_⟩
    · rw [hsame, or_self] at hname
      simp [Listing.lookup, hname]
    · rw [hsame, or_self] at hname
      rw [Listing.lookup_file_beside hname, Listing.lookup_nil]
  · have hbox : box = .file sourceFile ⟨scratchMode, sourceCode⟩ (.file stdinFile ⟨scratchMode, stdin⟩ .nil) := by
      simpa [stage, Listing.put, Listing.chain, hsame] using h.symm
    subst hbox
    refine ⟨fun name hname => ?_, fun name hname q => ?_⟩
    · rcases hname with rfl | rfl
      · exact ⟨⟨scratchMode, sourceCode⟩, by simp [Listing.lookup]⟩
      · exact ⟨⟨scratchMode, stdin⟩, by simp [Listing.lookup, hsame]⟩
    · rw [not_or] at hname
      rw [Listing.lookup_file_beside hname.1, Listing.lookup_file_beside hname.2, Listing.lookup_nil]

/-- The compiler left the source and stdin as they were staged. -/
def KeepsInputs (sourceFile : FileName) (staged : BoxListing) (box : BoxTree) : Prop :=
  ∀ name, name = sourceFile ∨ name = stdinFile → box.lookup [name] = staged.lookup [name]

/-- The same outputs were compiled. -/
def SameOutputs (sourceFile : FileName) (box box' : BoxTree) : Prop :=
  ∀ name, ¬ (name = sourceFile ∨ name = stdinFile) → ∀ q, box.lookup (name :: q) = box'.lookup (name :: q)

/-- Unpacking a packed box into a staged one succeeds, and shows the outputs of the packed box and
the inputs that were staged. -/
theorem unpackInto_packDir {tar : Tar} {scratchMode : Mode} {sourceFile : FileName} {sourceCode stdin : Bytes}
    {box : BoxTree} {staged : BoxListing} {readable : List FileName → Bool} {archive : ArchiveEntries}
    (reproduces : tar.Reproduces archive) (hstaged : stage scratchMode sourceFile sourceCode stdin = some staged)
    (packed : packDir readable [sourceFile.text, stdinFile.text] box.listing = some archive) :
    ∃ t, unpackInto tar staged (tar.build archive) = (t, true) ∧ ∀ name q, t.lookup (name :: q) =
      if name = sourceFile ∨ name = stdinFile then staged.lookup (name :: q) else box.lookup (name :: q) := by
  obtain ⟨_, hfree⟩ := stage_lookup hstaged
  have hkept : ∀ name : FileName, (!([sourceFile.text, stdinFile.text].contains name.text)) = true ↔
      ¬ (name = sourceFile ∨ name = stdinFile) := by
    intro name
    simp [FileName.text_injective.eq_iff]
  obtain ⟨t, hextract, hextends⟩ := Listing.exists_extract
    (box.distinct.filterNames fun name => !([sourceFile.text, stdinFile.text].contains name.text)) (Or.inl rfl)
    (fun name hname q => hfree name ((hkept name).mp (Listing.mem_names_filterNames hname).1) q) missingDirMode
  refine ⟨t, ?_, fun name q => ?_⟩
  · have hread : tar.read (tar.build archive) = (archive, true) := reproduces
    rw [← packDir_eq packed] at hextract
    simp [unpackInto, hread, hextract]
  · have hbelow := hextends.below (name :: q)
    rw [List.nil_append, Listing.lookup_filterNames] at hbelow
    by_cases hname : name = sourceFile ∨ name = stdinFile
    · rw [hbelow, if_neg fun h => (hkept name).mp h hname, if_pos hname, Option.none_or]
    · rw [hbelow, if_pos ((hkept name).mpr hname), if_neg hname, hfree name hname, Option.or_none, BoxTree.lookup]

/-- A cache hit stages and restores, path by path, the tree a cold compile of the job would have
left, given the packed box of a compile with the same outputs. -/
theorem restore_eq_coldCompile {tar : Tar} {scratchMode : Mode} {sourceFile : FileName} {sourceCode stdin : Bytes}
    {box cold : BoxTree} {staged : BoxListing} {readable : List FileName → Bool} {archive : ArchiveEntries}
    (reproduces : tar.Reproduces archive) (hstaged : stage scratchMode sourceFile sourceCode stdin = some staged)
    (packed : packDir readable [sourceFile.text, stdinFile.text] box.listing = some archive)
    (sameOutputs : SameOutputs sourceFile box cold) (keeps : KeepsInputs sourceFile staged cold) :
    ∃ t, restore tar staged (tar.build archive) = some t ∧ ∀ path, t.lookup path = cold.lookup path := by
  obtain ⟨t, hunpack, hlookup⟩ := unpackInto_packDir reproduces hstaged packed
  refine ⟨t, by rw [restore, hunpack], fun path => ?_⟩
  cases path with
  | nil => rw [BoxTree.lookup, Listing.lookup_root, Listing.lookup_root]
  | cons name q =>
    rw [hlookup]
    by_cases hname : name = sourceFile ∨ name = stdinFile
    · rw [if_pos hname]
      obtain ⟨data, hdata⟩ := (stage_lookup hstaged).1 name hname
      have hkept : cold.listing.lookup [name] = some (.file data) := (keeps name hname).trans hdata
      cases q with
      | nil => exact (keeps name hname).symm
      | cons y q =>
        -- nothing is below the staged files, neither in the box nor in the compiled tree
        rw [Listing.lookup_below_file hdata (by simp)]
        exact (Listing.lookup_below_file hkept (by simp)).symm
    · rw [if_neg hname]
      exact sameOutputs name hname q

/-- A Kotlin source. -/
def mainKt : FileName := ⟨"main.kt", by decide⟩

/-- The box of a compiler that wrote a program and a directory with a copy of the source. -/
def compiledBox (stdin : Bytes) : BoxTree where
  listing :=
    .file mainKt ⟨0o644, [1]⟩ (.file stdinFile ⟨0o644, stdin⟩
      (.dir progFile 0o755 (.file mainKt ⟨0o600, [2]⟩ .nil) .nil))
  distinct := by
    simp only [Listing.Distinct, Listing.names]
    decide

/-- What is packed of it. -/
def compiledArchive : ArchiveEntries :=
  [([progFile], .dir 0o755), ([progFile, mainKt], .file ⟨0o600, [2]⟩)]

/-- The nested copy of the source is restored beside the new stdin. -/
theorem restore_eq_coldCompile_nested :
    ∃ staged t, stage 0o644 mainKt [1] [9] = some staged ∧
      restore ⟨fun _ => [1], fun _ => (compiledArchive, true)⟩ staged [1] = some t ∧
      ∀ path, t.lookup path = (compiledBox [9]).lookup path := by
  have same : SameOutputs mainKt (compiledBox [7]) (compiledBox [9]) := by
    intro name hname q
    rw [not_or] at hname
    simp only [BoxTree.lookup, compiledBox]
    rw [Listing.lookup_file_beside hname.1, Listing.lookup_file_beside hname.2, Listing.lookup_file_beside hname.1,
      Listing.lookup_file_beside hname.2]
  have reproduces : Tar.Reproduces ⟨fun _ => [1], fun _ => (compiledArchive, true)⟩ compiledArchive := rfl
  have hstaged : stage 0o644 mainKt [1] [9] =
      some (.file mainKt ⟨0o644, [1]⟩ (.file stdinFile ⟨0o644, [9]⟩ .nil)) := by decide
  have packed : packDir (fun _ => true) [mainKt.text, stdinFile.text] (compiledBox [7]).listing =
      some compiledArchive := by decide
  have keeps : KeepsInputs mainKt (.file mainKt ⟨0o644, [1]⟩ (.file stdinFile ⟨0o644, [9]⟩ .nil)) (compiledBox [9]) := by
    rintro name (rfl | rfl) <;> decide
  obtain ⟨t, hrestore, hlookup⟩ := restore_eq_coldCompile reproduces hstaged packed same keeps
  exact ⟨_, t, hstaged, hrestore, hlookup⟩

end ZeroCode.Sandbox
