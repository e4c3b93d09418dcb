import ZeroCode.Foundation.Transition
import ZeroCode.Sandbox.Execute

/-!
# Calls that share a token

The scratch directory and the cgroup of a call are named by its token alone, so two calls
of `execute` for one token meet in the same two directories. `create_dir_all` accepts a
directory that is already there, `create_dir` does not, and the error arm behind the
latter removes the scratch directory whoever created it. Every entry of the two
directories is kept here with the call that created it.
-/

namespace ZeroCode.Sandbox.TokenResources

open ZeroCode.Core ZeroCode.Foundation

/-- The files of a scratch directory. -/
inductive FileName
  | source
  | stdin
  | cachedProg
  deriving DecidableEq, Repr

/-- What the token names: the scratch directory, the files in it, and the cgroup. -/
inductive Resource
  | scratchDir
  | file (name : FileName)
  | cgroup
  deriving DecidableEq, Repr

/-- The cgroup files a call writes when it creates its cgroup. -/
inductive CgroupFile
  | memoryMax
  | memorySwapMax
  | cpuMax
  | pidsMax
  deriving DecidableEq, Repr

/-- The content of an entry: the mode of a directory, the bytes of a file, the limits of a cgroup. -/
inductive Content
  | dir (mode : ℕ)
  | file (bytes : Bytes)
  | cgroup (files : List (CgroupFile × String))
  deriving DecidableEq, Repr

/-- An entry and the call that created it. -/
structure Entry (C : Type*) where
  creator : C
  content : Content
  deriving DecidableEq, Repr

/-- Where a call is. The flag of the destructors is whether the call returns a result. -/
inductive Pc
  | createDirAll
  | chmod
  | writeSource
  | writeStdin
  | writeCachedProg (binary : Bytes)
  | hasCachedBinary
  | createCgroup (hasCachedBinary : Bool)
  | setLimits (rest : List (CgroupFile × String))
  | run
  | classify
  | destroyCgroup (ok : Bool)
  | destroyScratch (ok : Bool)
  | returned (ok : Bool)
  deriving DecidableEq, Repr

/-- The entries named by the token and the positions of the calls. -/
structure State (C : Type*) where
  store : Resource → Option (Entry C)
  pc : C → Pc

/-- The reply of the operating system; `missing` is `ENOENT`. -/
inductive Reply
  | ok
  | missing
  | failed
  deriving DecidableEq, Repr

/-- What a running sandbox does to the directories of its token: it joins the cgroup, copies the
scratch files behind its new root, resets the cgroup between the phases, and is killed. -/
inductive RunAccess
  | attach
  | pivotIntoRunner
  | resetRunBaseline
  | kill
  deriving DecidableEq, Repr

/-- A call takes its next step with the given reply, or its sandbox uses one of the directories. -/
inductive Action (C : Type*)
  | next (c : C) (reply : Reply)
  | running (c : C) (access : RunAccess)
  deriving DecidableEq, Repr

/-- The call that takes the step. -/
def Action.caller {C : Type*} : Action C → C
  | .next c _ | .running c _ => c

/-- The limits of the cgroup: a compile phase raises memory and processes to its own limits. -/
def cgroupLimits (job : SandboxJob) (hasCachedBinary : Bool) : ResourceLimits :=
  if job.language.willCompile hasCachedBinary then
    match job.language.compileLimits with
    | some cl =>
      { job.limits with
        memoryMb := max cl.memoryMb job.limits.memoryMb
        maxPids := max cl.maxPids job.limits.maxPids }
    | none => job.limits
  else job.limits

/-- The text written to a memory limit. -/
def memoryText (memoryMb : ℕ) : String := toString (memoryMb * 1024 * 1024)

/-- The files written when a cgroup is created, in order. -/
def limitWrites (limits : ResourceLimits) : List (CgroupFile × String) :=
  [(.memoryMax, memoryText limits.memoryMb), (.memorySwapMax, "0"), (.cpuMax, "100000 100000"),
    (.pidsMax, toString limits.maxPids)]

/-- Write a file of the cgroup. -/
def Content.writeCgroup (file : CgroupFile) (text : String) : Content → Content
  | .cgroup files => .cgroup ((file, text) :: files.filter fun f => f.1 ≠ file)
  | other => other

variable {C : Type*} [DecidableEq C]

/-- No call has begun and nothing is there. -/
def State.init : State C where
  store _ := none
  pc _ := .createDirAll

/-- Move a call on. -/
def State.goto (s : State C) (c : C) (pc : Pc) : State C := { s with pc := Function.update s.pc c pc }

/-- Replace an entry. -/
def State.put (s : State C) (r : Resource) (e : Option (Entry C)) : State C :=
  { s with store := Function.update s.store r e }

/-- Change the content of an entry that is there, or create it. -/
def State.write (s : State C) (c : C) (r : Resource) (content : Content) : State C :=
  s.put r (some (match s.store r with | some e => { e with content := content } | none => ⟨c, content⟩))

/-- Change the content of an entry that is there. -/
def State.modify (s : State C) (r : Resource) (f : Content → Content) : State C :=
  s.put r ((s.store r).map fun e => { e with content := f e.content })

/-- Write a file of the scratch directory, which fails when the directory is gone. -/
def State.writeFile (s : State C) (c : C) (reply : Reply) (name : FileName) (bytes : Bytes) (next : Pc) : State C :=
  if reply = .ok ∧ (s.store .scratchDir).isSome = true then (s.write c (.file name) (.file bytes)).goto c next
  else s.goto c (.returned false)

/-- Remove the scratch directory and everything in it. -/
def State.removeScratch (s : State C) : State C :=
  { s with store := fun r => match r with | .cgroup => s.store .cgroup | _ => none }

/-- The next step of a call. -/
def nextStep (jobs : C → SandboxJob) (s : State C) (c : C) (reply : Reply) : Option (State C) :=
  match s.pc c with
  | .createDirAll =>
    if reply = .ok then
      match s.store .scratchDir with
      | some _ => some (s.goto c .chmod)
      | none => some ((s.put .scratchDir (some ⟨c, .dir 0o755⟩)).goto c .chmod)
    else some (s.goto c (.returned false))
  | .chmod =>
    if reply = .ok ∧ (s.store .scratchDir).isSome = true then
      some ((s.modify .scratchDir fun _ => .dir 0o700).goto c .writeSource)
    else some (s.goto c (.returned false))
  | .writeSource => some (s.writeFile c reply .source (jobs c).sourceCode .writeStdin)
  | .writeStdin =>
    some (s.writeFile c reply .stdin (jobs c).stdin (match (jobs c).cachedBinary with
      | some binary => .writeCachedProg binary
      | none => .hasCachedBinary))
  | .writeCachedProg binary => some (s.writeFile c reply .cachedProg binary .hasCachedBinary)
  | .hasCachedBinary => some (s.goto c (.createCgroup (s.store (.file .cachedProg)).isSome))
  | .createCgroup cached =>
    if reply = .ok ∧ (s.store .cgroup).isSome = false then
      some ((s.put .cgroup (some ⟨c, .cgroup []⟩)).goto c (.setLimits (limitWrites (cgroupLimits (jobs c) cached))))
    else some (s.goto c (.destroyScratch false))
  | .setLimits [] => some (s.goto c .run)
  | .setLimits ((file, text) :: rest) =>
    if reply = .ok ∧ (s.store .cgroup).isSome = true then
      some ((s.modify .cgroup (Content.writeCgroup file text)).goto c (.setLimits rest))
    -- a kernel without swap control has no such file
    else if reply = .missing ∧ file = .memorySwapMax then some (s.goto c (.setLimits rest))
    else some (s.goto c (.destroyScratch false))
  | .run => if reply = .ok then some (s.goto c .classify) else some (s.goto c (.destroyCgroup false))
  | .classify => some (s.goto c (.destroyCgroup true))
  | .destroyCgroup ok =>
    if reply = .ok then some ((s.put .cgroup none).goto c (.destroyScratch ok))
    else some (s.goto c (.destroyScratch ok))
  | .destroyScratch ok =>
    if reply = .ok then some (s.removeScratch.goto c (.returned ok)) else some (s.goto c (.returned ok))
  | .returned _ => none

/-- What a running sandbox changes: only the reset between the phases rewrites limits. -/
def runningStep (jobs : C → SandboxJob) (s : State C) (c : C) : RunAccess → State C
  | .attach | .pivotIntoRunner | .kill => s
  | .resetRunBaseline =>
    (s.modify .cgroup (Content.writeCgroup .memoryMax (memoryText (jobs c).limits.memoryMb))).modify .cgroup
      (Content.writeCgroup .pidsMax (toString (jobs c).limits.maxPids))

/-- One step of one of the calls. -/
def step (jobs : C → SandboxJob) (s : State C) : Action C → Option (State C)
  | .next c reply => nextStep jobs s c reply
  | .running c access => if s.pc c = .run then some (runningStep jobs s c access) else none

/-- The entries a step of a call at the given position reads, overwrites or removes. -/
def Pc.accesses : Pc → List Resource
  | .createDirAll | .createCgroup _ | .run | .returned _ => []
  | .chmod => [.scratchDir]
  | .writeSource => [.scratchDir, .file .source]
  | .writeStdin => [.scratchDir, .file .stdin]
  | .writeCachedProg _ => [.scratchDir, .file .cachedProg]
  | .hasCachedBinary => [.scratchDir, .file .cachedProg]
  | .setLimits _ | .classify | .destroyCgroup _ => [.cgroup]
  | .destroyScratch _ => [.scratchDir, .file .source, .file .stdin, .file .cachedProg]

/-- The entries a running sandbox uses. -/
def RunAccess.accesses : RunAccess → List Resource
  | .attach | .resetRunBaseline | .kill => [.cgroup]
  | .pivotIntoRunner => [.scratchDir, .file .source, .file .stdin, .file .cachedProg]

/-- The entries a step reads, overwrites or removes. -/
def accesses (s : State C) : Action C → List Resource
  | .next c _ => (s.pc c).accesses
  | .running _ access => access.accesses

/-- A step uses only what its own call created, and leaves everything else as it was. -/
structure Respects (s : State C) (a : Action C) (t : State C) : Prop where
  own : ∀ r ∈ accesses s a, ∀ e, s.store r = some e → e.creator = a.caller
  frame : ∀ r e, s.store r = some e → e.creator ≠ a.caller → t.store r = some e

/-- A call begins only when the directory of its token is not there. -/
def BeginsFresh (s : State C) : Action C → Prop
  | .next c _ => s.pc c = .createDirAll → s.store .scratchDir = none
  | .running _ _ => True

instance (s : State C) (a : Action C) : Decidable (BeginsFresh s a) :=
  match a with
  | .next c _ => inferInstanceAs (Decidable (s.pc c = .createDirAll → s.store .scratchDir = none))
  | .running _ _ => isTrue trivial

/-- The call created the scratch directory and has not returned. -/
def Pc.holdsScratch : Pc → Bool
  | .createDirAll | .returned _ => false
  | _ => true

/-- The call created the cgroup and has not removed it. -/
def Pc.holdsCgroup : Pc → Bool
  | .setLimits _ | .run | .classify | .destroyCgroup _ => true
  | _ => false

/-- Whoever is in the middle of its steps created the directories it works in. -/
structure Inv (s : State C) : Prop where
  scratch : ∀ c, (s.pc c).holdsScratch = true → ∃ e, s.store .scratchDir = some e ∧ e.creator = c
  files : ∀ name e, s.store (.file name) = some e → ∃ d, s.store .scratchDir = some d ∧ d.creator = e.creator
  cgroup : ∀ c, (s.pc c).holdsCgroup = true → ∃ e, s.store .cgroup = some e ∧ e.creator = c

omit [DecidableEq C] in
/-- Nobody is in the middle of anything before the first call. -/
theorem inv_init : Inv (State.init : State C) := ⟨nofun, nofun, nofun⟩

/-- A call that moves on without new claims keeps the invariant. -/
theorem Inv.goto {s : State C} (h : Inv s) {c : C} {pc : Pc}
    (hscratch : pc.holdsScratch = true → (s.pc c).holdsScratch = true)
    (hcgroup : pc.holdsCgroup = true → (s.pc c).holdsCgroup = true) : Inv (s.goto c pc) := by
  refine ⟨fun d hd => ?_, h.files, fun d hd => ?_⟩
  · by_cases hdc : d = c
    · subst hdc
      exact h.scratch d (hscratch (by simpa [State.goto] using hd))
    · exact h.scratch d (by simpa [State.goto, hdc] using hd)
  · by_cases hdc : d = c
    · subst hdc
      exact h.cgroup d (hcgroup (by simpa [State.goto] using hd))
    · exact h.cgroup d (by simpa [State.goto, hdc] using hd)

omit [DecidableEq C] in
/-- Changing the content of an entry keeps its creator. -/
theorem modify_store {s : State C} {r r' : Resource} {f : Content → Content} :
    (s.modify r f).store r' = if r' = r then (s.store r').map fun e => { e with content := f e.content }
      else s.store r' := by
  by_cases hr : r' = r
  · subst hr
    simp [State.modify, State.put]
  · simp [State.modify, State.put, hr]

omit [DecidableEq C] in
/-- The creators of the entries are the same after a change of content. -/
theorem modify_creator {s : State C} {r : Resource} {f : Content → Content} (r' : Resource) :
    ((s.modify r f).store r').map Entry.creator = (s.store r').map Entry.creator := by
  rw [modify_store]
  split
  · rw [Option.map_map]
    rfl
  · rfl

omit [DecidableEq C] in
/-- The invariant only depends on who created what. -/
theorem Inv.of_creator {s t : State C} (h : Inv s) (hpc : t.pc = s.pc)
    (hcreator : ∀ r, (t.store r).map Entry.creator = (s.store r).map Entry.creator) : Inv t := by
  have transfer {r : Resource} {c : C} (hs : ∃ e, s.store r = some e ∧ e.creator = c) :
      ∃ e, t.store r = some e ∧ e.creator = c := by
    obtain ⟨e, he, rfl⟩ := hs
    have hmap := hcreator r
    rw [he] at hmap
    exact Option.map_eq_some_iff.mp hmap
  refine ⟨fun c hc => transfer (h.scratch c (hpc ▸ hc)), fun name e he => ?_,
    fun c hc => transfer (h.cgroup c (hpc ▸ hc))⟩
  have hmap := hcreator (.file name)
  rw [he] at hmap
  obtain ⟨e', he', hsame⟩ := Option.map_eq_some_iff.mp hmap.symm
  obtain ⟨d, hd, hdir⟩ := h.files name e' he'
  exact transfer ⟨d, hd, hdir.trans hsame⟩

omit [DecidableEq C] in
/-- Changing content keeps the invariant. -/
theorem Inv.modify {s : State C} (h : Inv s) (r : Resource) (f : Content → Content) : Inv (s.modify r f) :=
  h.of_creator rfl modify_creator

omit [DecidableEq C] in
/-- The creator of the scratch directory may write files into it. -/
theorem Inv.writeEntry {s : State C} (h : Inv s) {c : C} (hheld : (s.pc c).holdsScratch = true)
    (name : FileName) (content : Content) : Inv (s.write c (.file name) content) := by
  refine ⟨fun d hd => ?_, fun other e he => ?_, fun d hd => ?_⟩
  · simpa [State.write, State.put] using h.scratch d hd
  · by_cases hname : other = name
    · subst hname
      cases hold : s.store (.file other) with
      | some e' =>
        have hcreator : e.creator = e'.creator := by
          have hnew : { e' with content := content } = e := by simpa [State.write, State.put, hold] using he
          rw [← hnew]
        rw [hcreator]
        simpa [State.write, State.put] using h.files other e' hold
      | none =>
        have hnew : ⟨c, content⟩ = e := by simpa [State.write, State.put, hold] using he
        subst hnew
        simpa [State.write, State.put] using h.scratch c hheld
    · have hold : s.store (.file other) = some e := by simpa [State.write, State.put, hname] using he
      simpa [State.write, State.put] using h.files other e hold
  · simpa [State.write, State.put] using h.cgroup d hd

/-- Writing a file keeps the invariant, whatever the reply. -/
theorem Inv.writeFile {s : State C} (h : Inv s) {c : C} (hheld : (s.pc c).holdsScratch = true) {next : Pc}
    (hcgroup : next.holdsCgroup = false) (reply : Reply) (name : FileName) (bytes : Bytes) :
    Inv (s.writeFile c reply name bytes next) := by
  unfold State.writeFile
  split
  · refine (h.writeEntry hheld name _).goto (fun _ => hheld) fun hholds => ?_
    rw [hcgroup] at hholds
    cases hholds
  · exact h.goto nofun nofun

/-- A call that finds no directory creates its own. -/
theorem Inv.createScratch {s : State C} (h : Inv s) {c : C} (habsent : s.store .scratchDir = none) (mode : ℕ) :
    Inv ((s.put .scratchDir (some ⟨c, .dir mode⟩)).goto c .chmod) := by
  refine ⟨fun d hd => ?_, fun name e he => ?_, fun d hd => ?_⟩
  · by_cases hdc : d = c
    · subst hdc
      simp [State.put, State.goto]
    · have hheld : (s.pc d).holdsScratch = true := by simpa [State.put, State.goto, hdc] using hd
      obtain ⟨e, he, _⟩ := h.scratch d hheld
      rw [habsent] at he
      cases he
  · have hold : s.store (.file name) = some e := by simpa [State.put, State.goto] using he
    obtain ⟨d, hd, _⟩ := h.files name e hold
    rw [habsent] at hd
    cases hd
  · by_cases hdc : d = c
    · subst hdc
      simp [State.put, State.goto, Pc.holdsCgroup] at hd
    · have hheld : (s.pc d).holdsCgroup = true := by simpa [State.put, State.goto, hdc] using hd
      simpa [State.put, State.goto] using h.cgroup d hheld

/-- A call that finds no cgroup creates its own. -/
theorem Inv.createCgroup {s : State C} (h : Inv s) {c : C} (hheld : (s.pc c).holdsScratch = true)
    (habsent : s.store .cgroup = none) (writes : List (CgroupFile × String)) :
    Inv ((s.put .cgroup (some ⟨c, .cgroup []⟩)).goto c (.setLimits writes)) := by
  refine ⟨fun d hd => ?_, fun name e he => ?_, fun d hd => ?_⟩
  · have hpc : (s.pc d).holdsScratch = true := by
      by_cases hdc : d = c
      · rw [hdc]
        exact hheld
      · simpa [State.put, State.goto, hdc] using hd
    simpa [State.put, State.goto] using h.scratch d hpc
  · have hold : s.store (.file name) = some e := by simpa [State.put, State.goto] using he
    simpa [State.put, State.goto] using h.files name e hold
  · by_cases hdc : d = c
    · subst hdc
      simp [State.put, State.goto]
    · have hother : (s.pc d).holdsCgroup = true := by simpa [State.put, State.goto, hdc] using hd
      obtain ⟨e, he, _⟩ := h.cgroup d hother
      rw [habsent] at he
      cases he

/-- The creator of the cgroup may remove it. -/
theorem Inv.removeCgroup {s : State C} (h : Inv s) {c : C} (hheld : (s.pc c).holdsCgroup = true) {pc : Pc}
    (hscratch : pc.holdsScratch = true → (s.pc c).holdsScratch = true) (hcgroup : pc.holdsCgroup = false) :
    Inv ((s.put .cgroup none).goto c pc) := by
  refine ⟨fun d hd => ?_, fun name e he => ?_, fun d hd => ?_⟩
  · have hpc : (s.pc d).holdsScratch = true := by
      by_cases hdc : d = c
      · subst hdc
        exact hscratch (by simpa [State.put, State.goto] using hd)
      · simpa [State.put, State.goto, hdc] using hd
    simpa [State.put, State.goto] using h.scratch d hpc
  · have hold : s.store (.file name) = some e := by simpa [State.put, State.goto] using he
    simpa [State.put, State.goto] using h.files name e hold
  · by_cases hdc : d = c
    · subst hdc
      simp [State.put, State.goto, hcgroup] at hd
    · have hother : (s.pc d).holdsCgroup = true := by simpa [State.put, State.goto, hdc] using hd
      obtain ⟨e, he, rfl⟩ := h.cgroup d hother
      obtain ⟨e', he', hsame⟩ := h.cgroup c hheld
      rw [he] at he'
      cases he'
      exact absurd hsame hdc

/-- The creator of the scratch directory may remove it. -/
theorem Inv.removeScratch {s : State C} (h : Inv s) {c : C} (hheld : (s.pc c).holdsScratch = true) (ok : Bool) :
    Inv (s.removeScratch.goto c (.returned ok)) := by
  refine ⟨fun d hd => ?_, nofun, fun d hd => ?_⟩
  · by_cases hdc : d = c
    · subst hdc
      simp [State.goto, Pc.holdsScratch] at hd
    · have hother : (s.pc d).holdsScratch = true := by simpa [State.removeScratch, State.goto, hdc] using hd
      obtain ⟨e, he, rfl⟩ := h.scratch d hother
      obtain ⟨e', he', hsame⟩ := h.scratch c hheld
      rw [he] at he'
      cases he'
      exact absurd hsame hdc
  · by_cases hdc : d = c
    · subst hdc
      simp [State.goto, Pc.holdsCgroup] at hd
    · exact h.cgroup d (by simpa [State.removeScratch, State.goto, hdc] using hd)

/-- Every step of a call that began fresh keeps the invariant. -/
theorem nextStep_inv {jobs : C → SandboxJob} {s t : State C} {c : C} {reply : Reply} (h : Inv s)
    (hfresh : BeginsFresh s (.next c reply)) (hstep : nextStep jobs s c reply = some t) : Inv t := by
  unfold nextStep at hstep
  cases hpc : s.pc c with
  | createDirAll =>
    simp only [hpc, hfresh hpc] at hstep
    split at hstep
    · cases hstep
      exact h.createScratch (hfresh hpc) _
    · cases hstep
      exact h.goto nofun nofun
  | chmod =>
    simp only [hpc] at hstep
    split at hstep
    · cases hstep
      exact (h.modify _ _).goto (fun _ => by rw [State.modify, State.put, hpc]; rfl) nofun
    · cases hstep
      exact h.goto nofun nofun
  | writeSource =>
    simp only [hpc, Option.some.injEq] at hstep
    subst hstep
    exact h.writeFile (by rw [hpc]; rfl) rfl _ _ _
  | writeStdin =>
    simp only [hpc, Option.some.injEq] at hstep
    subst hstep
    refine h.writeFile (by rw [hpc]; rfl) ?_ _ _ _
    split <;> rfl
  | writeCachedProg binary =>
    simp only [hpc, Option.some.injEq] at hstep
    subst hstep
    exact h.writeFile (by rw [hpc]; rfl) rfl _ _ _
  | hasCachedBinary =>
    simp only [hpc, Option.some.injEq] at hstep
    subst hstep
    exact h.goto (fun _ => by rw [hpc]; rfl) nofun
  | createCgroup cached =>
    simp only [hpc] at hstep
    split at hstep
    · rename_i hfree
      cases hstep
      exact h.createCgroup (by rw [hpc]; rfl) (by simpa using hfree.2) _
    · cases hstep
      exact h.goto (fun _ => by rw [hpc]; rfl) nofun
  | setLimits writes =>
    cases writes with
    | nil =>
      simp only [hpc, Option.some.injEq] at hstep
      subst hstep
      exact h.goto (fun _ => by rw [hpc]; rfl) fun _ => by rw [hpc]; rfl
    | cons write rest =>
      simp only [hpc] at hstep
      split at hstep
      · cases hstep
        refine (h.modify _ _).goto (fun _ => ?_) fun _ => ?_ <;>
          (rw [State.modify, State.put, hpc]; rfl)
      · split at hstep
        · cases hstep
          exact h.goto (fun _ => by rw [hpc]; rfl) fun _ => by rw [hpc]; rfl
        · cases hstep
          exact h.goto (fun _ => by rw [hpc]; rfl) nofun
  | run =>
    simp only [hpc] at hstep
    split at hstep <;> cases hstep <;>
      exact h.goto (fun _ => by rw [hpc]; rfl) fun _ => by rw [hpc]; rfl
  | classify =>
    simp only [hpc, Option.some.injEq] at hstep
    subst hstep
    exact h.goto (fun _ => by rw [hpc]; rfl) fun _ => by rw [hpc]; rfl
  | destroyCgroup ok =>
    simp only [hpc] at hstep
    split at hstep
    · cases hstep
      exact h.removeCgroup (by rw [hpc]; rfl) (fun _ => by rw [hpc]; rfl) rfl
    · cases hstep
      exact h.goto (fun _ => by rw [hpc]; rfl) nofun
  | destroyScratch ok =>
    simp only [hpc] at hstep
    split at hstep
    · cases hstep
      exact h.removeScratch (by rw [hpc]; rfl) ok
    · cases hstep
      exact h.goto nofun nofun
  | returned ok => simp [hpc] at hstep

/-- Every step, of a call or of its sandbox, keeps the invariant. -/
theorem step_inv {jobs : C → SandboxJob} (s : State C) (a : Action C) (t : State C) (h : Inv s)
    (hfresh : BeginsFresh s a) (hstep : step jobs s a = some t) : Inv t := by
  cases a with
  | next c reply => exact nextStep_inv h hfresh hstep
  | running c access =>
    simp only [step] at hstep
    split at hstep
    · cases hstep
      cases access with
      | attach => exact h
      | pivotIntoRunner => exact h
      | resetRunBaseline => exact (h.modify _ _).modify _ _
      | kill => exact h
    · cases hstep

/-- What a step uses was created by its own call. -/
theorem Inv.own {jobs : C → SandboxJob} {s t : State C} {a : Action C} (h : Inv s)
    (hstep : step jobs s a = some t) {r : Resource} (hr : r ∈ accesses s a) {e : Entry C}
    (he : s.store r = some e) : e.creator = a.caller := by
  have hpc : ∀ c, a.caller = c → (r = .cgroup → (s.pc c).holdsCgroup = true) →
      (r ≠ .cgroup → (s.pc c).holdsScratch = true) → e.creator = c := by
    intro c _ hcgroup hscratch
    cases r with
    | cgroup =>
      obtain ⟨e', he', hcreator⟩ := h.cgroup c (hcgroup rfl)
      rw [he] at he'
      cases he'
      exact hcreator
    | scratchDir =>
      obtain ⟨e', he', hcreator⟩ := h.scratch c (hscratch (by simp))
      rw [he] at he'
      cases he'
      exact hcreator
    | file name =>
      obtain ⟨d, hd, hfile⟩ := h.files name e he
      obtain ⟨e', he', hcreator⟩ := h.scratch c (hscratch (by simp))
      rw [hd] at he'
      cases he'
      exact hfile.symm.trans hcreator
  refine hpc a.caller rfl ?_ ?_
  · intro hsame
    subst hsame
    cases a with
    | next c reply => cases hc : s.pc c <;> simp_all [accesses, Pc.accesses, Pc.holdsCgroup, Action.caller]
    | running c access =>
      simp only [step] at hstep
      split at hstep
      · rename_i hrun
        simp [Action.caller, hrun, Pc.holdsCgroup]
      · cases hstep
  · intro hne
    cases a with
    | next c reply => cases hc : s.pc c <;> simp_all [accesses, Pc.accesses, Pc.holdsScratch, Action.caller]
    | running c access =>
      simp only [step] at hstep
      split at hstep
      · rename_i hrun
        simp [Action.caller, hrun, Pc.holdsScratch]
      · cases hstep

omit [DecidableEq C] in
/-- Replacing an entry leaves the others alone. -/
theorem put_store_of_ne {s : State C} {r r' : Resource} (hne : r' ≠ r) (e : Option (Entry C)) :
    (s.put r e).store r' = s.store r' :=
  Function.update_of_ne hne _ _

omit [DecidableEq C] in
/-- An entry stays where another one is replaced, or one is put where there was none. -/
theorem put_store_kept {s : State C} {r r' : Resource} {e : Entry C} (he : s.store r = some e)
    (hfree : r = r' → s.store r' = none) (new : Option (Entry C)) : (s.put r' new).store r = some e := by
  refine (put_store_of_ne (fun hsame => ?_) new).trans he
  rw [hsame, hfree hsame] at he
  cases he

/-- Writing a file leaves the other entries alone. -/
theorem writeFile_store_of_ne {s : State C} {c : C} {reply : Reply} {name : FileName} {bytes : Bytes} {next : Pc}
    {r : Resource} (hne : r ≠ .file name) : (s.writeFile c reply name bytes next).store r = s.store r := by
  unfold State.writeFile
  split
  · exact put_store_of_ne hne _
  · rfl

/-- A step leaves what it does not use as it was. -/
theorem nextStep_frame {jobs : C → SandboxJob} {s t : State C} {c : C} {reply : Reply}
    (hstep : nextStep jobs s c reply = some t) {r : Resource} (hr : r ∉ (s.pc c).accesses) {e : Entry C}
    (he : s.store r = some e) : t.store r = some e := by
  unfold nextStep at hstep
  cases hpc : s.pc c with
  | createDirAll =>
    simp only [hpc] at hstep
    split at hstep
    · split at hstep
      · cases hstep
        exact he
      · rename_i habsent
        cases hstep
        exact put_store_kept he (fun _ => habsent) _
    · cases hstep
      exact he
  | chmod =>
    have hne : r ≠ .scratchDir := by simpa [hpc, Pc.accesses] using hr
    simp only [hpc] at hstep
    split at hstep
    · cases hstep
      exact (put_store_of_ne hne _).trans he
    · cases hstep
      exact he
  | writeSource =>
    simp only [hpc, Option.some.injEq] at hstep
    subst hstep
    rw [writeFile_store_of_ne (by simp_all [Pc.accesses])]
    exact he
  | writeStdin =>
    simp only [hpc, Option.some.injEq] at hstep
    subst hstep
    rw [writeFile_store_of_ne (by simp_all [Pc.accesses])]
    exact he
  | writeCachedProg binary =>
    simp only [hpc, Option.some.injEq] at hstep
    subst hstep
    rw [writeFile_store_of_ne (by simp_all [Pc.accesses])]
    exact he
  | hasCachedBinary =>
    simp only [hpc, Option.some.injEq] at hstep
    subst hstep
    exact he
  | createCgroup cached =>
    simp only [hpc] at hstep
    split at hstep
    · rename_i hfree
      cases hstep
      exact put_store_kept he (fun _ => Option.not_isSome_iff_eq_none.mp (by simpa using hfree.2)) _
    · cases hstep
      exact he
  | setLimits writes =>
    have hne : r ≠ .cgroup := by simpa [hpc, Pc.accesses] using hr
    cases writes with
    | nil =>
      simp only [hpc, Option.some.injEq] at hstep
      subst hstep
      exact he
    | cons write rest =>
      simp only [hpc] at hstep
      split at hstep
      · cases hstep
        exact (put_store_of_ne hne _).trans he
      · split at hstep <;> cases hstep <;> exact he
  | run =>
    simp only [hpc] at hstep
    split at hstep <;> cases hstep <;> exact he
  | classify =>
    simp only [hpc, Option.some.injEq] at hstep
    subst hstep
    exact he
  | destroyCgroup ok =>
    have hne : r ≠ .cgroup := by simpa [hpc, Pc.accesses] using hr
    simp only [hpc] at hstep
    split at hstep
    · cases hstep
      exact (put_store_of_ne hne _).trans he
    · cases hstep
      exact he
  | destroyScratch ok =>
    simp only [hpc] at hstep
    split at hstep
    · cases hstep
      rw [hpc] at hr
      cases r with
      | cgroup => exact he
      | scratchDir => exact absurd (by simp [Pc.accesses]) hr
      | file name => exact absurd (by cases name <;> simp [Pc.accesses]) hr
    · cases hstep
      exact he
  | returned ok => simp [hpc] at hstep

/-- A step, of a call or of its sandbox, leaves what it does not use as it was. -/
theorem step_frame {jobs : C → SandboxJob} {s t : State C} {a : Action C} (hstep : step jobs s a = some t)
    {r : Resource} (hr : r ∉ accesses s a) {e : Entry C} (he : s.store r = some e) : t.store r = some e := by
  cases a with
  | next c reply => exact nextStep_frame hstep hr he
  | running c access =>
    simp only [step] at hstep
    split at hstep
    · cases hstep
      cases access with
      | attach => exact he
      | pivotIntoRunner => exact he
      | kill => exact he
      | resetRunBaseline =>
        have hne : r ≠ .cgroup := by simpa [accesses, RunAccess.accesses] using hr
        rw [runningStep, modify_store, if_neg hne, modify_store, if_neg hne]
        exact he
    · cases hstep

/-- In every run whose calls begin only when the directory of the token is not there, each step
uses only what its own call created. -/
theorem respects_of_beginsFresh {jobs : C → SandboxJob} {s t : State C} {a : Action C}
    (hreached : Reaches (step jobs) BeginsFresh State.init s) (hstep : step jobs s a = some t) :
    Respects s a t := by
  have hinv := hreached.invariant Inv inv_init step_inv
  refine ⟨fun r hr e he => hinv.own hstep hr he, fun r e he hother => ?_⟩
  exact step_frame hstep (fun hr => hother (hinv.own hstep hr he)) he

/-- The steps of a call up to the creation of its cgroup. -/
def begin (c : C) : List (Action C) := List.replicate 5 (.next c .ok)

/-- A call that begins after another one failed respects what is there. -/
theorem respects_of_beginsFresh_afterFailure :
    ∃ s t : State Bool,
      runActions (checkedStep (step fun _ => .interpreted []) BeginsFresh) State.init
          (.next false .failed :: begin true) = some s ∧
        step (fun _ => .interpreted []) s (.next true .ok) = some t ∧ Respects s (.next true .ok) t := by
  have hrun : runActions (checkedStep (step fun _ => .interpreted []) BeginsFresh) State.init
      (.next false .failed :: begin true) = some _ := rfl
  have respects {t : State Bool} (hstep : step (fun _ => .interpreted []) _ (.next true .ok) = some t) :=
    And.intro hstep (respects_of_beginsFresh (.of_runActions _ hrun) hstep)
  exact ⟨_, _, hrun, respects rfl⟩

/-- A call that finds the cgroup of another one removes the scratch directory of the other. -/
theorem overlappingCall_removesScratch :
    ∃ s t : State Bool, Reachable (step fun _ => .interpreted []) State.init s ∧
      step (fun _ => .interpreted []) s (.next true .ok) = some t ∧
        ((s.store .scratchDir).map Entry.creator = some false ∧ t.store .scratchDir = none) ∧
          ¬ Respects s (.next true .ok) t := by
  refine ⟨_, _, .of_runActions (begin false ++ [.next false .ok] ++ begin true ++ [.next true .ok]) rfl, rfl,
    ⟨rfl, rfl⟩, fun h => ?_⟩
  exact absurd (h.own .scratchDir (by decide) _ rfl) (by decide)

end ZeroCode.Sandbox.TokenResources
