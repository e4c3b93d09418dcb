import ZeroCode.Sandbox.PhaseOrder

/-!
# Who writes the compile output

The compile pipe is created without close-on-exec, so the program inherits its writing
end and can append to the diagnostics of the compiler, or invent some where nothing was
compiled. What is stored is the capped prefix of the pipe, in which the compiler comes
first: it is the compiler's own output as long as the program adds nothing that fits.
-/

namespace ZeroCode.Sandbox.Phases

open ZeroCode.Core ZeroCode.Foundation PipeIsolation

/-- The stored compile output is the capped stderr of the compile sub-child, and absent without
a compile phase. -/
def CompileOutputIsCompilers (job : SandboxJob) (s : State) (result : SandboxResult) : Prop :=
  result.compileOutput.getD [] = (bytesBy s.io.log .compiler .compile).take job.limits.maxStderr ∧
    (s.entered = false → result.compileOutput = none)

/-- Our code never writes to the compile pipe. -/
theorem Inv.compile_not_harness {s : State} (h : Inv s) :
    ∀ w ∈ s.io.log, w.pipe = .compile → w.writer ≠ .harness := by
  intro w hw hpipe hwriter
  rcases h.harness w hw hwriter with hbad | hbad | ⟨hbad, _⟩ <;> simp [hpipe] at hbad

/-- Something appended goes unnoticed in a prefix exactly when it is empty or does not fit. -/
theorem take_append_eq_take_iff (a b : Bytes) (n : ℕ) : (a ++ b).take n = a.take n ↔ b = [] ∨ n ≤ a.length := by
  rw [List.take_append, List.append_right_eq_self, List.take_eq_nil_iff, Nat.sub_eq_zero_iff_le, or_comm]

/-- The compile output of a result is the capped content of the compile pipe. -/
theorem Returns.compileOutput {job : SandboxJob} {cached : Bool} {s : State} {m : Measures s}
    {result : SandboxResult} (h : Returns job cached s m result) :
    result.compileOutput =
      if ((bytesOf s.io.log .compile).take job.limits.maxStderr).isEmpty then none
      else some ((bytesOf s.io.log .compile).take job.limits.maxStderr) := by
  obtain ⟨raw, hraw, hconcluded⟩ := h.returned
  obtain ⟨triaged, htriaged, rfl⟩ := conclude_ok hconcluded
  rw [← (raw_collected hraw).compileStderr]
  exact (classify_billing htriaged).1

/-- The compile output is the compiler's exactly when the program wrote nothing to the compile
pipe, or the compiler alone had filled the cap. -/
theorem compileOutput_isCompilers_iff {job : SandboxJob} {cached : Bool} {num : Numbering} {s : State}
    {m : Measures s} {result : SandboxResult} (reached : Reachable (step job cached num) State.init s)
    (h : Returns job cached s m result) :
    CompileOutputIsCompilers job s result ↔
      bytesBy s.io.log .program .compile = [] ∨
        job.limits.maxStderr ≤ (bytesBy s.io.log .compiler .compile).length := by
  have inv := reachable_inv reached
  have hpipe := inv.bytesOf_eq inv.compile_not_harness
  have hstored : result.compileOutput.getD [] = (bytesOf s.io.log .compile).take job.limits.maxStderr := by
    rw [h.compileOutput]
    split
    · rename_i hempty
      rw [List.isEmpty_iff.mp hempty, Option.getD_none]
    · rw [Option.getD_some]
  rw [CompileOutputIsCompilers, hstored, ← take_append_eq_take_iff, ← hpipe]
  refine and_iff_left_of_imp fun hquiet hnot => ?_
  have hcompiler : bytesBy s.io.log .compiler .compile = [] :=
    bytesBy_eq_nil_iff.mpr fun w hw _ => ((inv.untouched hnot).2.2 w hw).1
  rw [h.compileOutput, hquiet, hcompiler, List.take_nil]
  rfl

/-- A program that leaves the compile pipe alone keeps the output of its compiler. -/
theorem compileOutput_isCompilers_iff_quiet :
    ∃ result, Returns .compiled false (finalState .compiled false (coldRun [.write 2 [119]] [] [1]))
        (.whole _ 5) result ∧
      CompileOutputIsCompilers .compiled (finalState .compiled false (coldRun [.write 2 [119]] [] [1])) result := by
  have reached := reachable_finalState .compiled false (coldRun [.write 2 [119]] [] [1]) (by decide +kernel)
  obtain ⟨result, hresult⟩ := exists_returns_finalState .compiled false (coldRun [.write 2 [119]] [] [1])
    (by decide +kernel) 5
  exact ⟨result, hresult, (compileOutput_isCompilers_iff reached hresult).mpr (Or.inl (by decide +kernel))⟩

/-- A program that writes to the descriptor 8 it inherited adds to the output of its compiler. -/
theorem forgedCompileOutput :
    ¬ ∀ job cached num s, Reachable (step job cached num) State.init s →
      ∀ (m : Measures s) result, Returns job cached s m result → CompileOutputIsCompilers job s result := by
  intro h
  have reached := reachable_finalState .compiled false (coldRun [.write 2 [119]] [.write 8 [33]] [1])
    (by decide +kernel)
  obtain ⟨result, hresult⟩ := exists_returns_finalState .compiled false
    (coldRun [.write 2 [119]] [.write 8 [33]] [1]) (by decide +kernel) 5
  have hquiet := (compileOutput_isCompilers_iff reached hresult).mp (h _ _ _ _ reached _ _ hresult)
  revert hquiet
  decide +kernel

end ZeroCode.Sandbox.Phases
