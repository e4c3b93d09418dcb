import ZeroCode.Foundation.Fallible
import ZeroCode.Foundation.PathWalk
import ZeroCode.Sandbox.Mounts

/-!
# File access in the sandbox

After the pivot PID 1 restricts itself with a Landlock ruleset: it may read and execute
beneath the directories of the system, and everything beneath `/box`, `/tmp` and `/dev`. A
rule is about the directory its path led to when the ruleset was made, and an access is
judged where the walk of its path ends, whatever links the program has made.

The kernel may support only some of the access rights that are to be handled; the others
are not restricted.
-/

namespace ZeroCode.Sandbox

open ZeroCode.Core ZeroCode.Foundation

/-- The access rights of the first Landlock ABI. -/
inductive AccessFs
  | execute
  | writeFile
  | readFile
  | readDir
  | removeDir
  | removeFile
  | makeChar
  | makeDir
  | makeReg
  | makeSock
  | makeFifo
  | makeBlock
  | makeSym
  deriving DecidableEq, Repr

/-- The rights to read. -/
def AccessFs.fromRead : List AccessFs := [.execute, .readFile, .readDir]

/-- All rights. -/
def AccessFs.fromAll : List AccessFs :=
  [.execute, .writeFile, .readFile, .readDir, .removeDir, .removeFile, .makeChar, .makeDir, .makeReg, .makeSock,
    .makeFifo, .makeBlock, .makeSym]

variable {H : Type}

/-- What is in the file systems: the links, and what exists. The root of a file system is no link. -/
structure FileContents (H : Type) where
  links : FileSystem H → List String → Option (Link String)
  present : FileSystem H → List String → Bool
  links_root : ∀ fs, links fs [] = none

/-- The most links one walk follows. -/
def maxSymlinks : ℕ := 40

/-- The link that a path shows. -/
def FileContents.linkAt (files : FileContents H) (table : MountTable String (FileSystem H) MsFlags)
    (path : List String) : Option (Link String) :=
  (table.resolve path).bind fun shown => files.links shown.1 shown.2

/-- The path an opened path leads to. -/
def FileContents.pathFd (files : FileContents H) (table : MountTable String (FileSystem H) MsFlags)
    (path : List String) : Option (List String) :=
  (walk (files.linkAt table) maxSymlinks [] (path.map .name)).filter fun target =>
    (table.resolve target).any fun shown => files.present shown.1 shown.2

/-- A directory and the rights granted beneath it. -/
structure PathBeneath (H : Type) where
  directory : FileSystem H × List String
  access : List AccessFs
  deriving DecidableEq, Repr

/-- What a process is restricted to. -/
structure LandlockDomain (H : Type) where
  handled : List AccessFs
  rules : List (PathBeneath H)
  deriving DecidableEq, Repr

/-- How much of a ruleset the kernel enforces. -/
inductive RulesetStatus
  | fullyEnforced
  | partiallyEnforced
  | notEnforced
  deriving DecidableEq, Repr

/-- The kernel: the rights it can restrict, and the errors of its calls. -/
structure LandlockKernel where
  supported : List AccessFs
  createError : Option String
  addRulesError : Option String
  restrictError : Option String

/-- The rules for the paths that can be opened. -/
def rulesFor (files : FileContents H) (table : MountTable String (FileSystem H) MsFlags) (access : List AccessFs)
    (paths : List (List String)) : List (PathBeneath H) :=
  paths.filterMap fun path =>
    (files.pathFd table path).bind fun target => (table.resolve target).map fun shown => ⟨shown, access⟩

/-- The directories of the system. -/
def roPaths : List (List String) :=
  [["usr"], ["lib"], ["lib64"], ["bin"], ["sbin"], ["etc"], ["proc"], ["var"]]

/-- What of the rights to be handled the kernel restricts. -/
def rulesetStatus (supported : List AccessFs) : RulesetStatus :=
  if AccessFs.fromAll.all (· ∈ supported) then .fullyEnforced
  else if AccessFs.fromAll.any (· ∈ supported) then .partiallyEnforced
  else .notEnforced

/-- A call of the kernel that fails with the given error. -/
def landlockCall (error : Option String) (message : String → String) : Except SandboxError Unit :=
  match error with
  | some e => .error (.landlockSetup (message e))
  | none => .ok ()

/-- Restrict the calling process. -/
def landlockApply (kernel : LandlockKernel) (files : FileContents H)
    (table : MountTable String (FileSystem H) MsFlags) (scratchDir : List String) :
    Except SandboxError (LandlockDomain H) := do
  let roRules := rulesFor files table AccessFs.fromRead roPaths
  let rwRules := rulesFor files table AccessFs.fromAll [scratchDir, ["tmp"], ["dev"]]
  landlockCall kernel.createError id
  landlockCall kernel.addRulesError id
  landlockCall kernel.restrictError ("restrict_self: " ++ ·)
  match rulesetStatus kernel.supported with
  | .fullyEnforced | .partiallyEnforced => .ok ⟨AccessFs.fromAll.filter (· ∈ kernel.supported), roRules ++ rwRules⟩
  | .notEnforced =>
    .error (.landlockSetup "landlock available but ruleset not enforced (kernel ABI too low?)")

/-- A right is granted at a path when it is not restricted, or when a rule for a directory above the path grants it. -/
def LandlockDomain.permits [DecidableEq H] (domain : LandlockDomain H)
    (table : MountTable String (FileSystem H) MsFlags) (access : AccessFs) (path : List String) : Bool :=
  access ∉ domain.handled ||
    path.inits.any fun above =>
      domain.rules.any fun rule => access ∈ rule.access && table.resolve above == some rule.directory

/-- What a process gets that asks for a right at a path: the path where its walk ends, when the right is granted there. -/
def LandlockDomain.reaches [DecidableEq H] (domain : LandlockDomain H) (files : FileContents H)
    (s : MountState H) (access : AccessFs) (absolute : Bool) (steps : List (PathStep String)) :
    Option (List String) :=
  (walk (files.linkAt s.table) maxSymlinks (if absolute then [] else s.cwd) steps).filter fun path =>
    domain.permits s.table access path

/-- A file of the submission's own: in one of its file systems, or one of the device nodes of the worker. -/
def OwnFile (before : MountTable String (FileSystem H) MsFlags) (shown : Option (FileSystem H × List String)) : Prop :=
  (∃ which options path, shown = some (.tmpfs which options, path)) ∨
    ∃ node ∈ devNodes, ∃ path, shown = (before.resolve ["dev", node]).map fun device => (device.1, device.2 ++ path)

/-- Nothing of a submission was mounted before its setup. -/
def HostOnly (before : MountTable String (FileSystem H) MsFlags) : Prop :=
  ∀ path shown, before.resolve path = some shown → ∃ fs, shown.1 = .host fs

/-- A rule is for a path that could be opened. -/
theorem mem_rulesFor {files : FileContents H} {table : MountTable String (FileSystem H) MsFlags}
    {access : List AccessFs} {paths : List (List String)} {rule : PathBeneath H}
    (h : rule ∈ rulesFor files table access paths) :
    rule.access = access ∧ ∃ path ∈ paths, ∃ target, files.pathFd table path = some target ∧
      table.resolve target = some rule.directory := by
  obtain ⟨path, hpath, hrule⟩ := List.mem_filterMap.mp h
  obtain ⟨target, htarget, hrule⟩ := Option.bind_eq_some_iff.mp hrule
  obtain ⟨shown, hshown, rfl⟩ := Option.map_eq_some_iff.mp hrule
  exact ⟨rfl, path, hpath, target, htarget, hshown⟩

/-- A right is granted that is not restricted, or by a rule for a directory above the path. -/
theorem LandlockDomain.permits_iff [DecidableEq H] {domain : LandlockDomain H}
    {table : MountTable String (FileSystem H) MsFlags} {access : AccessFs} {path : List String} :
    domain.permits table access path = true ↔
      access ∉ domain.handled ∨ ∃ above, above <+: path ∧ ∃ rule ∈ domain.rules,
        access ∈ rule.access ∧ table.resolve above = some rule.directory := by
  simp [permits]

/-- What a successful call leaves the process restricted to. -/
theorem landlockApply_eq_ok {kernel : LandlockKernel} {files : FileContents H}
    {table : MountTable String (FileSystem H) MsFlags} {scratchDir : List String} {domain : LandlockDomain H}
    (h : landlockApply kernel files table scratchDir = .ok domain) :
    domain = ⟨AccessFs.fromAll.filter (· ∈ kernel.supported),
      rulesFor files table AccessFs.fromRead roPaths ++
        rulesFor files table AccessFs.fromAll [scratchDir, ["tmp"], ["dev"]]⟩ := by
  obtain ⟨_, _, h⟩ := bind_eq_ok_iff.mp h
  obtain ⟨_, _, h⟩ := bind_eq_ok_iff.mp h
  obtain ⟨_, _, h⟩ := bind_eq_ok_iff.mp h
  split at h
  · exact (Except.ok.inj h).symm
  · exact (Except.ok.inj h).symm
  · cases h

/-- Where a file system of the submission is mounted, no link is. -/
theorem linkAt_of_root {files : FileContents H} {table : MountTable String (FileSystem H) MsFlags} {path : List String}
    {fs : FileSystem H} (h : table.resolve path = some (fs, [])) : files.linkAt table path = none := by
  rw [FileContents.linkAt, h]
  exact files.links_root fs

/-- A directory at which a file system is mounted is opened as itself. -/
theorem pathFd_of_root {files : FileContents H} {table : MountTable String (FileSystem H) MsFlags} {name : String}
    {fs : FileSystem H} (h : table.resolve [name] = some (fs, [])) {target : List String}
    (hopen : files.pathFd table [name] = some target) : target = [name] := by
  have hwalk := @walk_name String (files.linkAt table) [] name (linkAt_of_root h) maxSymlinks
  rw [FileContents.pathFd, List.map_cons, List.map_nil, hwalk, Option.filter_eq_some_iff] at hopen
  exact (Option.some.inj hopen.1).symm

/-- The file systems of a submission are seen where they are mounted, and nowhere else. -/
theorem exists_mount_of_tmpfs_root {cfg : PivotConfig} {before : MountTable String (FileSystem H) MsFlags}
    (hhost : HostOnly before) {path : List String} {which : Tmpfs} {options : String}
    (h : runnerView cfg before path = some (.tmpfs which options, [])) :
    path ∈ [["box"], ["tmp"], ["dev"]] := by
  have hnot {p : List String} {rest : List String}
      (hp : before.resolve p = some (.tmpfs which options, rest)) : False := by
    obtain ⟨fs, hfs⟩ := hhost p _ hp
    cases hfs
  unfold runnerView at h
  split at h
  · cases h
  · cases h
    simp
  · cases h
    simp
  · simp
  · split at h
    · obtain ⟨shown, hshown, heq⟩ := Option.map_eq_some_iff.mp h
      obtain ⟨fs, hfs⟩ := hhost _ _ hshown
      rw [(Prod.mk.inj heq).1] at hfs
      cases hfs
    · cases h
  · exact (hnot h).elim

/-- Beneath the three mount points every file is one of the submission's own. -/
theorem ownFile_beneath {cfg : PivotConfig} {before : MountTable String (FileSystem H) MsFlags} {above path : List String}
    (habove : above ∈ [["box"], ["tmp"], ["dev"]]) (hpath : above <+: path) :
    OwnFile before (runnerView cfg before path) := by
  obtain ⟨rest, rfl⟩ := hpath
  simp only [List.mem_cons, List.not_mem_nil, or_false] at habove
  rcases habove with rfl | rfl | rfl
  · exact .inl ⟨_, _, rest, rfl⟩
  · exact .inl ⟨_, _, rest, rfl⟩
  · cases rest with
    | nil => exact .inl ⟨_, _, [], rfl⟩
    | cons node rest =>
      by_cases hnode : node ∈ devNodes
      · exact .inr ⟨node, hnode, rest, if_pos hnode⟩
      · exact .inl ⟨_, _, node :: rest, if_neg hnode⟩

/-- The directories with all rights are the mount points of the file systems of the submission. -/
theorem tmpfs_root_of_rwRule {cfg : PivotConfig} {before table : MountTable String (FileSystem H) MsFlags}
    {files : FileContents H} (hview : ∀ path, table.resolve path = runnerView cfg before path) {rule : PathBeneath H}
    (hrule : rule ∈ rulesFor files table AccessFs.fromAll [["box"], ["tmp"], ["dev"]]) :
    ∃ which options, rule.directory = (.tmpfs which options, []) := by
  obtain ⟨-, path, hpath, target, htarget, hdirectory⟩ := mem_rulesFor hrule
  have hroot : ∃ name which options, path = [name] ∧ table.resolve [name] = some (.tmpfs which options, []) := by
    simp only [List.mem_cons, List.not_mem_nil, or_false] at hpath
    rcases hpath with rfl | rfl | rfl
    · exact ⟨_, _, _, rfl, hview ["box"]⟩
    · exact ⟨_, _, _, rfl, hview ["tmp"]⟩
    · exact ⟨_, _, _, rfl, hview ["dev"]⟩
  obtain ⟨name, which, options, rfl, hshown⟩ := hroot
  rw [pathFd_of_root hshown htarget, hshown] at hdirectory
  exact ⟨which, options, (Option.some.inj hdirectory).symm⟩

/-- The walk of a path starts below no link. -/
theorem noLinkAbove_start {cfg : PivotConfig} {before : MountTable String (FileSystem H) MsFlags} {files : FileContents H}
    {s : MountState H} (hview : ∀ path, s.table.resolve path = runnerView cfg before path) (hcwd : s.cwd = ["box"])
    (absolute : Bool) : NoLinkAbove (files.linkAt s.table) (if absolute then [] else s.cwd) := by
  cases absolute with
  | true => exact noLinkAbove_nil _
  | false =>
    rw [if_neg (by simp), hcwd, ← List.nil_append ["box"]]
    exact (noLinkAbove_nil _).append_singleton (linkAt_of_root (hview ["box"]))

/-- Whatever path a program uses and whatever links it has made, a right to change something is granted only where the
walk of the path ends, and only on a file of the submission's own. -/
theorem ownFile_of_reaches [DecidableEq H] (w : MountWorld) (cfg : PivotConfig) (kernel : LandlockKernel)
    (files : FileContents H) (s s' : MountState H) (domain : LandlockDomain H) (access : AccessFs) (absolute : Bool)
    (steps : List (PathStep String)) (path : List String) (hhost : HostOnly s.table)
    (hsetup : setupMounts w cfg s = (s', none)) (hdomain : landlockApply kernel files s'.table s'.cwd = .ok domain)
    (hsupported : access ∈ kernel.supported) (hchanges : access ∉ AccessFs.fromRead)
    (h : domain.reaches files s' access absolute steps = some path) :
    NoLinkAbove (files.linkAt s'.table) path ∧ OwnFile s.table (s'.table.resolve path) := by
  obtain ⟨hview, hcwd⟩ := resolve_setupMounts w cfg s s' hsetup
  obtain ⟨hwalk, hpermits⟩ := Option.filter_eq_some_iff.mp h
  refine ⟨noLinkAbove_walk (noLinkAbove_start hview hcwd absolute) hwalk, ?_⟩
  rw [hcwd] at hdomain
  obtain rfl := landlockApply_eq_ok hdomain
  rcases LandlockDomain.permits_iff.mp hpermits with hunhandled | ⟨above, habove, rule, hrule, haccess, hshown⟩
  · have hall : access ∈ AccessFs.fromAll := by cases access <;> decide
    exact absurd (by simp [hall, hsupported]) hunhandled
  · rcases List.mem_append.mp hrule with hro | hrw
    · exact absurd ((mem_rulesFor hro).1 ▸ haccess) hchanges
    · obtain ⟨which, options, hdirectory⟩ := tmpfs_root_of_rwRule hview hrw
      rw [hview, hdirectory] at hshown
      rw [hview]
      exact ownFile_beneath (exists_mount_of_tmpfs_root hhost hshown) habove

/-- The files of a sandbox whose program has made a link `/box/passwd` to `/etc/passwd`. -/
def linkedFiles : FileContents String where
  links fs path :=
    if fs = .tmpfs .box "size=64m,mode=0700" ∧ path = ["passwd"] then some ⟨true, [.name "etc", .name "passwd"]⟩
    else none
  present _ _ := true
  links_root _ := if_neg (by simp)

/-- A kernel that restricts every right. -/
def fullKernel : LandlockKernel := ⟨AccessFs.fromAll, none, none, none⟩

/-- Only file systems of the host are mounted in the worker. -/
theorem hostOnly_sharedWorker : HostOnly sharedWorker.table := by
  intro path shown h
  obtain ⟨m, hm, rfl⟩ := Option.map_eq_some_iff.mp h
  have hmem := List.mem_of_find?_eq_some hm
  simp only [sharedWorker, List.mem_cons, List.not_mem_nil, or_false] at hmem
  rcases hmem with rfl | rfl | rfl
  · exact ⟨_, rfl⟩
  · exact ⟨_, rfl⟩
  · exact ⟨_, rfl⟩

/-- In the sandbox of that worker the program may write a file in its working directory, which is its own. -/
theorem ownFile_of_reaches_linkedFiles :
    OwnFile sharedWorker.table
      ((setupMounts ⟨fun _ => none, false, false⟩ sharedWorkerConfig sharedWorker).1.table.resolve ["box", "out.txt"]) :=
  (ownFile_of_reaches ⟨fun _ => none, false, false⟩ sharedWorkerConfig fullKernel linkedFiles sharedWorker _ _ .writeFile
    false [.name "out.txt"] ["box", "out.txt"] hostOnly_sharedWorker (Prod.ext rfl (by decide +kernel)) rfl (by decide)
    (by decide) (by decide +kernel)).2

/-- It may not write through the link it has made. -/
example : ((landlockApply fullKernel linkedFiles
    (setupMounts ⟨fun _ => none, false, false⟩ sharedWorkerConfig sharedWorker).1.table ["box"]).toOption.bind
      (·.reaches linkedFiles (setupMounts ⟨fun _ => none, false, false⟩ sharedWorkerConfig sharedWorker).1 .writeFile
        false [.name "passwd"])) = none := by
  decide +kernel

end ZeroCode.Sandbox
