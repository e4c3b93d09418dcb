import ZeroCode.Foundation.MountTable
import ZeroCode.Sandbox.Outcome

/-!
# The mounts of a sandbox

PID 1 of the new namespace makes the runner image its root. It stops the propagation of
its mounts, binds the image beneath the scratch directory, mounts a tmpfs for `/box`,
`/tmp` and `/dev`, binds the device nodes of the worker, pivots into the image and detaches
the old root. Any of these steps may fail, which ends the child before it executes
anything.

What is staged into `/box` in between is modelled by `ZeroCode.Sandbox.Artifact`.
-/

namespace ZeroCode.Sandbox

open ZeroCode.Core ZeroCode.Foundation

/-- The flags a mount of the sandbox is given. -/
structure MsFlags where
  nosuid : Bool
  nodev : Bool
  noexec : Bool
  deriving DecidableEq, Repr

/-- The three tmpfs instances of a submission. -/
inductive Tmpfs
  | box
  | tmp
  | dev
  deriving DecidableEq, Repr

/-- What a mount shows: a file system that was there before, a tmpfs of the submission, or the processes of its
namespace. -/
inductive FileSystem (H : Type*)
  | host (fs : H)
  | tmpfs (which : Tmpfs) (options : String)
  | proc
  deriving DecidableEq, Repr

/-- The fallible steps of the mount setup. -/
inductive MountStep
  | makePrivate
  | mkdirNewRoot
  | rbindRunnerRootfs
  | tmpfsBox
  | tmpfsTmp
  | tmpfsDev
  | touchNode (node : String)
  | bindNode (node : String)
  | copySource
  | copyStdin
  | readCached
  | writeCached
  | chmodCached
  | mkdirPutOld
  | pivotRoot
  | chdirRoot
  | mountProc
  | umountOld
  | rmdirOld
  | chdirBox
  deriving DecidableEq, Repr

/-- A path as it is printed. -/
def display (path : List String) : String := "/" ++ "/".intercalate path

/-- What the setup is given. -/
structure PivotConfig where
  runnerRootfs : List String
  scratchDir : List String
  sourceFile : String
  boxSizeMb : ℕ
  tmpSizeMb : ℕ
  deriving DecidableEq, Repr

/-- The directory that becomes the root. -/
def PivotConfig.newRoot (cfg : PivotConfig) : List String := cfg.scratchDir ++ ["root"]

/-- Where the old root is kept until it is detached, as seen from the new root. -/
def putOld : List String := ["box", ".zc-old"]

/-- The error of a failing step. -/
def MountStep.error (cfg : PivotConfig) (e : String) : MountStep → SandboxError
  | .makePrivate => .mountSetup ("make rprivate /: " ++ e)
  | .mkdirNewRoot => .mountSetup ("mkdir " ++ display cfg.newRoot ++ ": " ++ e)
  | .rbindRunnerRootfs => .mountSetup ("rbind runner_rootfs: " ++ e)
  | .tmpfsBox => .mountSetup ("tmpfs /box: " ++ e)
  | .tmpfsTmp => .mountSetup ("tmpfs /tmp: " ++ e)
  | .tmpfsDev => .mountSetup ("tmpfs /dev: " ++ e)
  | .touchNode node => .mountSetup ("touch /dev/" ++ node ++ ": " ++ e)
  | .bindNode node => .mountSetup ("bind /dev/" ++ node ++ ": " ++ e)
  | .copySource => .mountSetup ("copy source: " ++ e)
  | .copyStdin => .mountSetup ("copy stdin: " ++ e)
  | .readCached => .mountSetup ("read cached artifact: " ++ e)
  | .writeCached => .mountSetup ("write cached binary: " ++ e)
  | .chmodCached => .mountSetup ("chmod cached binary: " ++ e)
  | .mkdirPutOld => .mountSetup ("mkdir put_old: " ++ e)
  | .pivotRoot => .mountSetup ("pivot_root: " ++ e)
  | .chdirRoot => .mountSetup ("chdir /: " ++ e)
  | .mountProc => .mountSetup ("mount /proc: " ++ e)
  | .umountOld => .mountSetup ("umount /box/.zc-old: " ++ e)
  | .rmdirOld => .mountSetup ("rmdir /box/.zc-old: " ++ e)
  | .chdirBox => .mountSetup ("chdir /box: " ++ e)

/-- What happens to the setup from outside: the steps that fail, and the cached artifact of the job. -/
structure MountWorld where
  fails : MountStep → Option String
  cached : Bool
  unpacks : Bool

/-- The mounts PID 1 sees, and its working directory. -/
structure MountState (H : Type*) where
  table : MountTable String (FileSystem H) MsFlags
  cwd : List String
  deriving DecidableEq, Repr

variable {H : Type*}

/-- A step and what it does when it does not fail; a call that the kernel refuses does nothing. -/
abbrev MountCall (H : Type*) := MountStep × (MountState H → Option (MountState H))

/-- Change the mounts. -/
def onTable (f : MountTable String (FileSystem H) MsFlags → Option (MountTable String (FileSystem H) MsFlags))
    (s : MountState H) : Option (MountState H) :=
  (f s.table).map fun table => { s with table := table }

/-- Mount a file system. -/
def mountAt (target : List String) (source : FileSystem H) (flags : MsFlags) : MountState H → Option (MountState H) :=
  onTable fun t => some (t.attach target [⟨target, source, [], flags, false⟩])

/-- The device nodes that are bound into the sandbox. -/
def devNodes : List String := ["null", "zero", "full", "random", "urandom", "tty"]

/-- Make a file for a device node and bind the node of the worker over it. -/
def bindNode (cfg : PivotConfig) (node : String) : List (MountCall H) :=
  [(.touchNode node, some),
    (.bindNode node, onTable fun t => t.bind ["dev", node] (cfg.newRoot ++ ["dev", node]))]

/-- Make the mounts private to the namespace. -/
def makeNamespacePrivate : MountCall H := (.makePrivate, onTable fun t => some t.makePrivate)

/-- The calls before the pivot. -/
def mountsOfImage (cfg : PivotConfig) : List (MountCall H) :=
  [(.mkdirNewRoot, some),
    (.rbindRunnerRootfs, onTable fun t => t.rbind cfg.runnerRootfs cfg.newRoot),
    (.tmpfsBox, mountAt (cfg.newRoot ++ ["box"])
      (.tmpfs .box ("size=" ++ toString cfg.boxSizeMb ++ "m,mode=0700")) ⟨true, true, false⟩),
    (.tmpfsTmp, mountAt (cfg.newRoot ++ ["tmp"])
      (.tmpfs .tmp ("size=" ++ toString cfg.tmpSizeMb ++ "m,mode=1777")) ⟨true, true, false⟩),
    (.tmpfsDev, mountAt (cfg.newRoot ++ ["dev"]) (.tmpfs .dev "mode=0755,size=1m") ⟨true, false, true⟩)]

/-- The calls that stage the job in `/box`. -/
def stageCalls (w : MountWorld) : List (MountCall H) :=
  [(.copySource, some), (.copyStdin, some)] ++
    if w.cached then (.readCached, some) :: if w.unpacks then [] else [(.writeCached, some), (.chmodCached, some)]
    else []

/-- The calls from the pivot on. -/
def pivotCalls (cfg : PivotConfig) : List (MountCall H) :=
  [(.mkdirPutOld, some),
    (.pivotRoot, onTable fun t => t.pivotRoot cfg.newRoot (cfg.newRoot ++ putOld)),
    (.chdirRoot, fun s => some { s with cwd := [] }),
    (.mountProc, mountAt ["proc"] .proc ⟨true, true, true⟩),
    (.umountOld, onTable fun t => t.detach putOld),
    (.rmdirOld, some),
    (.chdirBox, fun s => some { s with cwd := ["box"] })]

/-- Make the runner image the root of the calling process. -/
def pivotIntoRunner (w : MountWorld) (cfg : PivotConfig) : List (MountCall H) :=
  mountsOfImage cfg ++ devNodes.flatMap (bindNode cfg) ++ stageCalls w ++ pivotCalls cfg

/-- Perform the calls up to the first that fails. -/
def performCalls (w : MountWorld) (cfg : PivotConfig) :
    List (MountCall H) → MountState H → MountState H × Option SandboxError
  | [], s => (s, none)
  | (step, effect) :: rest, s =>
    match w.fails step with
    | some e => (s, some (step.error cfg e))
    | none =>
      match effect s with
      | none => (s, some (step.error cfg "EINVAL"))
      | some s' => performCalls w cfg rest s'

/-- The mount setup of PID 1. -/
def setupMounts (w : MountWorld) (cfg : PivotConfig) (s : MountState H) : MountState H × Option SandboxError :=
  performCalls w cfg (makeNamespacePrivate :: pivotIntoRunner w cfg) s

/-- What the paths of the sandbox show: the runner image as the worker sees it, with the file systems of the
submission and the device nodes of the worker over it. -/
def runnerView (cfg : PivotConfig) (before : MountTable String (FileSystem H) MsFlags) :
    List String → Option (FileSystem H × List String)
  | "proc" :: p => some (.proc, p)
  | "box" :: p => some (.tmpfs .box ("size=" ++ toString cfg.boxSizeMb ++ "m,mode=0700"), p)
  | "tmp" :: p => some (.tmpfs .tmp ("size=" ++ toString cfg.tmpSizeMb ++ "m,mode=1777"), p)
  | ["dev"] => some (.tmpfs .dev "mode=0755,size=1m", [])
  | "dev" :: node :: p =>
    if node ∈ devNodes then (before.resolve ["dev", node]).map fun shown => (shown.1, shown.2 ++ p)
    else some (.tmpfs .dev "mode=0755,size=1m", node :: p)
  | p => before.resolve (cfg.runnerRootfs ++ p)

/-- The calls, one after the other, none of which is refused. -/
def effects : List (MountCall H) → MountState H → Option (MountState H)
  | [], s => some s
  | call :: rest, s => (call.2 s).bind (effects rest)

/-- Calls that all succeed had their effects. -/
theorem effects_of_performCalls {w : MountWorld} {cfg : PivotConfig} {calls : List (MountCall H)} {s s' : MountState H}
    (h : performCalls w cfg calls s = (s', none)) : effects calls s = some s' := by
  induction calls generalizing s with
  | nil =>
    cases h
    rfl
  | cons call rest ih =>
    obtain ⟨step, effect⟩ := call
    rw [performCalls] at h
    split at h
    · cases h
    · split at h
      · cases h
      · rename_i hstep
        simp only [effects, hstep, Option.bind_some]
        exact ih h

/-- Whatever every call keeps holds where the setup stopped, successful or not. -/
theorem performCalls_keeps {w : MountWorld} {cfg : PivotConfig} {P : MountState H → Prop} {calls : List (MountCall H)}
    (hkeeps : ∀ call ∈ calls, ∀ s s', P s → call.2 s = some s' → P s') {s : MountState H} (h : P s) :
    P (performCalls w cfg calls s).1 := by
  induction calls generalizing s with
  | nil => exact h
  | cons call rest ih =>
    obtain ⟨step, effect⟩ := call
    rw [performCalls]
    split
    · exact h
    · split
      · exact h
      · rename_i hstep
        exact ih (fun call hcall => hkeeps call (List.mem_cons_of_mem _ hcall))
          (hkeeps (step, effect) List.mem_cons_self s _ h hstep)

/-- The effects of a part of the calls come first. -/
theorem effects_append (first second : List (MountCall H)) (s : MountState H) :
    effects (first ++ second) s = (effects first s).bind (effects second) := by
  induction first generalizing s with
  | nil => rfl
  | cons call rest ih =>
    rw [List.cons_append, effects, effects, Option.bind_assoc]
    exact congrArg _ (funext ih)

/-- No call, no effect. -/
theorem effects_nil (s : MountState H) : effects [] s = some s := rfl

/-- The effect of the first call comes first. -/
theorem effects_cons_eq_some_iff {call : MountCall H} {rest : List (MountCall H)} {s s' : MountState H} :
    effects (call :: rest) s = some s' ↔ ∃ middle, call.2 s = some middle ∧ effects rest middle = some s' :=
  Option.bind_eq_some_iff

/-- A change of the mounts is one of the table alone. -/
theorem onTable_eq_some_iff {f : MountTable String (FileSystem H) MsFlags → Option (MountTable String (FileSystem H) MsFlags)}
    {s s' : MountState H} : onTable f s = some s' ↔ ∃ table, f s.table = some table ∧ s' = { s with table := table } := by
  rw [onTable, Option.map_eq_some_iff]
  simp only [eq_comm]

/-- A mounted file system covers what is beneath its mount point. -/
theorem resolve_mountAt (t : MountTable String (FileSystem H) MsFlags) (target : List String) (source : FileSystem H)
    (flags : MsFlags) (p : List String) :
    (t.attach target [⟨target, source, [], flags, false⟩]).resolve p =
      if target <+: p then some (source, p.drop target.length) else t.resolve p :=
  t.resolve_attach_singleton ⟨target, source, [], flags, false⟩ p

/-- The image and the file systems over it, as seen from the new root; the rest is as before. -/
theorem resolve_mountsOfImage {cfg : PivotConfig} {s s' : MountState H}
    (h : effects (mountsOfImage cfg) s = some s') :
    (∀ p, s'.table.resolve (cfg.newRoot ++ p) =
      match p with
      | "box" :: p => some (.tmpfs .box ("size=" ++ toString cfg.boxSizeMb ++ "m,mode=0700"), p)
      | "tmp" :: p => some (.tmpfs .tmp ("size=" ++ toString cfg.tmpSizeMb ++ "m,mode=1777"), p)
      | "dev" :: p => some (.tmpfs .dev "mode=0755,size=1m", p)
      | p => s.table.resolve (cfg.runnerRootfs ++ p)) ∧
      ∀ p, ¬ cfg.newRoot <+: p → s'.table.resolve p = s.table.resolve p := by
  simp only [mountsOfImage, effects_cons_eq_some_iff, effects_nil, mountAt, onTable_eq_some_iff, Option.some.injEq] at h
  obtain ⟨_, rfl, _, ⟨image, hbind, rfl⟩, _, ⟨_, rfl, rfl⟩, _, ⟨_, rfl, rfl⟩, _, ⟨_, rfl, rfl⟩, rfl⟩ := h
  constructor
  · intro p
    simp only [resolve_mountAt, MountTable.resolve_rbind hbind, List.prefix_append_right_inj, List.prefix_append,
      List.drop_left, if_true]
    cases p with
    | nil => simp
    | cons name q =>
      simp only [List.cons_prefix_cons, List.nil_prefix, and_true, List.length_append, List.length_singleton,
        List.drop_length_add_append, List.drop_one, List.tail_cons]
      split
      · rename_i h
        subst h
        rfl
      · split
        · rename_i h
          subst h
          rfl
        · split
          · rename_i h
            subst h
            rfl
          · rename_i hdev htmp hbox
            split
            · rename_i h
              exact absurd (List.cons.inj h).1.symm hbox
            · rename_i h
              exact absurd (List.cons.inj h).1.symm htmp
            · rename_i h
              exact absurd (List.cons.inj h).1.symm hdev
            · rfl
  · intro p hp
    have hbeneath (name : String) : ¬ cfg.newRoot ++ [name] <+: p :=
      fun h => hp ((List.prefix_append _ _).trans h)
    simp only [resolve_mountAt, MountTable.resolve_rbind hbind, if_neg (hbeneath _), if_neg hp]

/-- The new root is not above a device node of the worker. -/
theorem newRoot_not_above_node (cfg : PivotConfig) {node : String} (hnode : node ≠ "root") :
    ¬ cfg.newRoot <+: ["dev", node] := by
  rintro ⟨rest, hrest⟩
  rw [PivotConfig.newRoot] at hrest
  match hdir : cfg.scratchDir with
  | [] => simp [hdir] at hrest
  | [first] =>
    simp only [hdir, List.cons_append, List.nil_append, List.cons.injEq] at hrest
    exact hnode hrest.2.1.symm
  | first :: second :: others => simp [hdir] at hrest

/-- A bound device node covers its target alone. -/
theorem resolve_bindNode {cfg : PivotConfig} {node : String} {s s' : MountState H}
    (h : effects (bindNode cfg node) s = some s') (p : List String) :
    s'.table.resolve p =
      if cfg.newRoot ++ ["dev", node] <+: p then
        (s.table.resolve ["dev", node]).map fun shown =>
          (shown.1, shown.2 ++ p.drop (cfg.newRoot ++ ["dev", node]).length)
      else s.table.resolve p := by
  simp only [bindNode, effects_cons_eq_some_iff, effects_nil, onTable_eq_some_iff, Option.some.injEq] at h
  obtain ⟨_, rfl, _, ⟨bound, hbind, rfl⟩, rfl⟩ := h
  exact MountTable.resolve_bind hbind p

/-- After the loop over the device nodes, each of them shows the node of the worker, and nothing else has changed. -/
theorem resolve_bindNodes {cfg : PivotConfig} {nodes : List String} (hnodes : ∀ node ∈ nodes, node ≠ "root")
    {s s' : MountState H} (h : effects (nodes.flatMap (bindNode cfg)) s = some s') :
    (∀ node q, s'.table.resolve (cfg.newRoot ++ "dev" :: node :: q) =
      if node ∈ nodes then (s.table.resolve ["dev", node]).map fun shown => (shown.1, shown.2 ++ q)
      else s.table.resolve (cfg.newRoot ++ "dev" :: node :: q)) ∧
      ∀ p, (∀ node, ¬ cfg.newRoot ++ ["dev", node] <+: p) → s'.table.resolve p = s.table.resolve p := by
  induction nodes generalizing s with
  | nil =>
    cases h
    exact ⟨fun node q => rfl, fun p _ => rfl⟩
  | cons first rest ih =>
    rw [List.flatMap_cons, effects_append, Option.bind_eq_some_iff] at h
    obtain ⟨middle, hfirst, hrest⟩ := h
    have hmiddle := resolve_bindNode hfirst
    obtain ⟨hshown, hother⟩ := ih (fun node hnode => hnodes node (List.mem_cons_of_mem _ hnode)) hrest
    -- the node of the worker still shows what it showed before the loop
    have hworker (node : String) (hnode : node ≠ "root") :
        middle.table.resolve ["dev", node] = s.table.resolve ["dev", node] := by
      rw [hmiddle, if_neg fun habove => newRoot_not_above_node cfg hnode ((List.prefix_append _ _).trans habove)]
    constructor
    · intro node q
      rw [hshown]
      by_cases hin : node ∈ rest
      · rw [if_pos hin, if_pos (List.mem_cons_of_mem _ hin), hworker node (hnodes node (List.mem_cons_of_mem _ hin))]
      · rw [if_neg hin, hmiddle]
        simp only [List.prefix_append_right_inj, List.cons_prefix_cons, List.nil_prefix, and_true, true_and,
          List.length_append, List.length_cons, List.length_nil, List.drop_length_add_append, List.mem_cons, hin, or_false,
          eq_comm (a := first)]
        split
        · rename_i heq
          subst heq
          rfl
        · rfl
    · intro p hp
      rw [hother p hp, hmiddle, if_neg (hp first)]

/-- Staging the job changes no mount. -/
theorem effects_stageCalls {w : MountWorld} {s s' : MountState H} (h : effects (stageCalls w) s = some s') : s' = s := by
  unfold stageCalls at h
  split at h
  · split at h
    · simpa [effects, eq_comm] using h
    · simpa [effects, eq_comm] using h
  · simpa [effects, eq_comm] using h

/-- After the pivot, a path shows what was beneath the new root, but for the processes of the namespace. -/
theorem resolve_pivotCalls {cfg : PivotConfig} {s s' : MountState H} (h : effects (pivotCalls cfg) s = some s') :
    (∀ p, s'.table.resolve p =
      if ["proc"] <+: p then some (.proc, p.drop 1) else s.table.resolve (cfg.newRoot ++ p)) ∧ s'.cwd = ["box"] := by
  simp only [pivotCalls, effects_cons_eq_some_iff, effects_nil, mountAt, onTable_eq_some_iff, Option.some.injEq] at h
  obtain ⟨_, rfl, _, ⟨pivoted, hpivot, rfl⟩, _, rfl, _, ⟨_, rfl, rfl⟩, _, ⟨_, hdetach, rfl⟩, _, rfl, _, rfl, rfl⟩ := h
  refine ⟨fun p => ?_, rfl⟩
  rw [MountTable.resolve_detach_pivotRoot hpivot _ hdetach p]
  · by_cases hproc : ["proc"] <+: p
    · simp [hproc, Mount.position]
    · simp [hproc]
  · intro m hm
    rw [List.mem_singleton.mp hm]
    simp [putOld]

/-- What the paths show once the setup has succeeded. -/
theorem resolve_setupMounts (w : MountWorld) (cfg : PivotConfig) (s s' : MountState H)
    (h : setupMounts w cfg s = (s', none)) :
    (∀ p, s'.table.resolve p = runnerView cfg s.table p) ∧ s'.cwd = ["box"] := by
  have heffects := effects_of_performCalls h
  rw [effects_cons_eq_some_iff] at heffects
  obtain ⟨private₀, hprivate, heffects⟩ := heffects
  simp only [makeNamespacePrivate, onTable_eq_some_iff, Option.some.injEq] at hprivate
  obtain ⟨_, rfl, rfl⟩ := hprivate
  simp only [pivotIntoRunner, effects_append, Option.bind_eq_some_iff] at heffects
  obtain ⟨staged, ⟨noded, ⟨image, himage, hnodes⟩, hstage⟩, hpivot⟩ := heffects
  obtain rfl := effects_stageCalls hstage
  obtain ⟨hview, hcwd⟩ := resolve_pivotCalls hpivot
  obtain ⟨hnode, hother⟩ := resolve_bindNodes (by decide) hnodes
  obtain ⟨himageShown, himageOther⟩ := resolve_mountsOfImage himage
  refine ⟨fun p => ?_, hcwd⟩
  have houtside {p : List String} (hp : ∀ node, ¬ ["dev", node] <+: p) :
      s'.table.resolve p = if ["proc"] <+: p then some (.proc, p.drop 1) else image.table.resolve (cfg.newRoot ++ p) := by
    rw [hview, hother _ fun node => by simpa only [List.prefix_append_right_inj] using hp node]
  unfold runnerView
  split
  · rename_i q
    rw [houtside fun node => by simp]
    simp
  · rename_i q
    rw [houtside fun node => by simp, himageShown]
    simp
  · rename_i q
    rw [houtside fun node => by simp, himageShown]
    simp
  · rw [houtside fun node => by simp, himageShown]
    simp
  · rename_i node q
    rw [hview, if_neg (by simp), hnode]
    split
    · rename_i hmem
      rw [himageOther _ (newRoot_not_above_node cfg fun heq => absurd (heq ▸ hmem) (by decide)),
        MountTable.resolve_makePrivate]
    · exact himageShown ("dev" :: node :: q)
  · rename_i hproc hbox htmp hdev hnode'
    rw [houtside, if_neg, himageShown]
    · split
      · exact absurd rfl (hbox _)
      · exact absurd rfl (htmp _)
      · rename_i q
        cases q with
        | nil => exact absurd rfl hdev
        | cons node q => exact absurd rfl (hnode' node q)
      · exact MountTable.resolve_makePrivate _ _
    · rintro ⟨q, rfl⟩
      exact hproc q rfl
    · rintro node ⟨q, rfl⟩
      exact hnode' node q rfl

/-- A private table that has propagated just what was given. -/
def QuietSince (propagated : List (Mount String (FileSystem H) MsFlags)) (s : MountState H) : Prop :=
  s.table.Private ∧ s.table.propagated = propagated

/-- A mounted file system is not propagated from a private table. -/
theorem QuietSince.mountAt {propagated : List (Mount String (FileSystem H) MsFlags)} {target : List String}
    {source : FileSystem H} {flags : MsFlags} {s s' : MountState H} (h : QuietSince propagated s)
    (hmount : mountAt target source flags s = some s') : QuietSince propagated s' := by
  obtain ⟨table, htable, rfl⟩ := onTable_eq_some_iff.mp hmount
  cases htable
  have hprivate : ∀ m ∈ [(⟨target, source, [], flags, false⟩ : Mount String (FileSystem H) MsFlags)], m.shared = false := by
    simp
  have hattach := h.1.attach target hprivate
  exact ⟨hattach.1, hattach.2.trans h.2⟩

/-- A change of the mounts that keeps private tables private propagates nothing. -/
theorem QuietSince.onTable {propagated : List (Mount String (FileSystem H) MsFlags)}
    {f : MountTable String (FileSystem H) MsFlags → Option (MountTable String (FileSystem H) MsFlags)}
    (hf : ∀ t t' : MountTable String (FileSystem H) MsFlags, t.Private → f t = some t' →
      t'.Private ∧ t'.propagated = t.propagated)
    {s s' : MountState H} (h : QuietSince propagated s) (hstep : onTable f s = some s') : QuietSince propagated s' := by
  obtain ⟨table, htable, rfl⟩ := onTable_eq_some_iff.mp hstep
  have hquiet := hf _ _ h.1 htable
  exact ⟨hquiet.1, hquiet.2.trans h.2⟩

/-- In a private table no call of the setup propagates anything. -/
theorem quietSince_of_call {w : MountWorld} {cfg : PivotConfig} {call : MountCall H} (hcall : call ∈ pivotIntoRunner w cfg)
    {propagated : List (Mount String (FileSystem H) MsFlags)} {s s' : MountState H} (h : QuietSince propagated s)
    (hstep : call.2 s = some s') : QuietSince propagated s' := by
  have hidle {x : MountState H} (hx : some s = some x) : QuietSince propagated x := Option.some.inj hx ▸ h
  have hcwd {cwd : List String} {x : MountState H} (hx : some { s with cwd := cwd } = some x) :
      QuietSince propagated x := Option.some.inj hx ▸ h
  simp only [pivotIntoRunner, List.mem_append, or_assoc] at hcall
  rcases hcall with himage | hnode | hstage | hpivot
  · simp only [mountsOfImage, List.mem_cons, List.not_mem_nil, or_false] at himage
    rcases himage with rfl | rfl | rfl | rfl | rfl
    · exact hidle hstep
    · exact h.onTable (fun _ _ ht hbind => ht.rbind hbind) hstep
    · exact h.mountAt hstep
    · exact h.mountAt hstep
    · exact h.mountAt hstep
  · obtain ⟨node, _, hnode⟩ := List.mem_flatMap.mp hnode
    simp only [bindNode, List.mem_cons, List.not_mem_nil, or_false] at hnode
    rcases hnode with rfl | rfl
    · exact hidle hstep
    · exact h.onTable (fun _ _ ht hbind => ht.bind hbind) hstep
  · have hsame : call.2 = some := by
      simp only [stageCalls, List.mem_append, List.mem_cons, List.not_mem_nil, or_false] at hstage
      rcases hstage with (rfl | rfl) | hcached
      · rfl
      · rfl
      · split at hcached
        · rcases List.mem_cons.mp hcached with rfl | hlegacy
          · rfl
          · split at hlegacy
            · cases hlegacy
            · simp only [List.mem_cons, List.not_mem_nil, or_false] at hlegacy
              rcases hlegacy with rfl | rfl
              · rfl
              · rfl
        · cases hcached
    rw [hsame] at hstep
    exact hidle hstep
  · simp only [pivotCalls, List.mem_cons, List.not_mem_nil, or_false] at hpivot
    rcases hpivot with rfl | rfl | rfl | rfl | rfl | rfl | rfl
    · exact hidle hstep
    · exact h.onTable (fun _ _ ht hpivot => ht.pivotRoot hpivot) hstep
    · exact hcwd hstep
    · exact h.mountAt hstep
    · exact h.onTable (fun _ _ ht hdetach => ht.detach hdetach) hstep
    · exact hidle hstep
    · exact hcwd hstep

/-- Whatever step the setup stops at, the other namespaces see nothing of it. -/
theorem propagated_setupMounts (w : MountWorld) (cfg : PivotConfig) (s : MountState H) :
    (setupMounts w cfg s).1.table.propagated = s.table.propagated := by
  rw [setupMounts, makeNamespacePrivate, performCalls]
  split
  · rfl
  · split
    · rfl
    · rename_i private₀ hprivate
      obtain ⟨table, htable, rfl⟩ := onTable_eq_some_iff.mp hprivate
      cases htable
      have hquiet : QuietSince s.table.propagated { s with table := s.table.makePrivate } :=
        ⟨MountTable.private_makePrivate s.table, rfl⟩
      exact (performCalls_keeps (fun call hcall _ _ h hstep => quietSince_of_call hcall h hstep) hquiet).2

/-- Wherever the setup stops, the other namespaces see nothing of it; and once it has succeeded, every path shows what
the sandbox is meant to show there: the runner image, the file systems of the submission and the device nodes, and
nothing else of what the worker sees. -/
theorem setupMounts_isolated (w : MountWorld) (cfg : PivotConfig) (s : MountState H) :
    (setupMounts w cfg s).1.table.propagated = s.table.propagated ∧
      ∀ s', setupMounts w cfg s = (s', none) →
        (∀ p, s'.table.resolve p = runnerView cfg s.table p) ∧ s'.cwd = ["box"] :=
  ⟨propagated_setupMounts w cfg s, fun s' h => resolve_setupMounts w cfg s s' h⟩

/-- A worker whose root is shared and whose runner image and `/dev` are mounts of their own. -/
def sharedWorker : MountState String :=
  ⟨⟨[⟨["dev"], .host "devtmpfs", [], ⟨true, false, true⟩, true⟩, ⟨["opt", "runners"], .host "image", [], ⟨false, false, false⟩, true⟩,
      ⟨[], .host "overlay", [], ⟨false, false, false⟩, true⟩], []⟩, ["app"]⟩

/-- The configuration of a job of that worker. -/
def sharedWorkerConfig : PivotConfig := ⟨["opt", "runners"], ["var", "lib", "zerocode", "j1"], "main.py", 64, 32⟩

/-- In that worker the setup of a job without a cached artifact succeeds, and the sandbox sees the image. -/
theorem setupMounts_isolated_sharedWorker :
    (setupMounts ⟨fun _ => none, false, false⟩ sharedWorkerConfig sharedWorker).1.cwd = ["box"] :=
  ((setupMounts_isolated ⟨fun _ => none, false, false⟩ sharedWorkerConfig sharedWorker).2 _
    (Prod.ext rfl (by decide +kernel))).2

end ZeroCode.Sandbox
