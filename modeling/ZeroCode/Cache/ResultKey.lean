import ZeroCode.Cache.CompileKey
import ZeroCode.Foundation.Framing

/-!
# The key of the result cache

The result key hashes a whole job: the language id, the source, the input and every limit.
Numbers have a fixed width, strings stand behind their lengths, and a time is the pattern
of the 64 bits it is stored in, so that the hashed bytes determine the job.
-/

namespace ZeroCode.Cache

open ZeroCode.Core ZeroCode.Foundation

/-- A byte string whose length is a number of 64 bits. -/
abbrev Slice := {bytes : Bytes // bytes.length < 2 ^ 64}

/-- The limits of a job as they are hashed: a time is the pattern of its bits. -/
@[ext]
structure LimitPatterns where
  cpuTime : UInt64
  wallTime : UInt64
  memoryMb : UInt32
  maxPids : UInt32
  maxStdout : UInt32
  maxStderr : UInt32
  enableNetwork : Bool
  deriving DecidableEq

/-- The hashed bytes of the limits, in the order of the fields. -/
def LimitPatterns.input (limits : LimitPatterns) : Bytes :=
  toLeBytes 8 limits.cpuTime.toNat ++ toLeBytes 8 limits.wallTime.toNat ++ toLeBytes 4 limits.memoryMb.toNat ++
    toLeBytes 4 limits.maxPids.toNat ++ toLeBytes 4 limits.maxStdout.toNat ++ toLeBytes 4 limits.maxStderr.toNat ++
      [if limits.enableNetwork then 1 else 0]

/-- What is hashed for a result key. -/
def resultKeyInput (languageId : ℕ) (source stdin : Bytes) (limits : LimitPatterns) : Bytes :=
  "zerocode/result/v1\x00".toUTF8.toList ++ toLeBytes 4 languageId ++ toLeBytes 8 source.length ++ source ++
    toLeBytes 8 stdin.length ++ stdin ++ limits.input

/-- The limits as they are hashed, given the bits of a number of seconds. -/
def limitPatterns (toBits : ℚ → UInt64) (limits : ResourceLimits) : LimitPatterns where
  cpuTime := toBits limits.cpuTime
  wallTime := toBits limits.wallTime
  memoryMb := UInt32.ofNat limits.memoryMb
  maxPids := UInt32.ofNat limits.maxPids
  maxStdout := UInt32.ofNat limits.maxStdout
  maxStderr := UInt32.ofNat limits.maxStderr
  enableNetwork := limits.enableNetwork

/-- The key of a result. -/
def CacheKey.result {Digest : Type*} (blake3 : Bytes → Digest) (toBits : ℚ → UInt64) (languageId : ℕ)
    (source stdin : Bytes) (limits : ResourceLimits) : Digest :=
  blake3 (resultKeyInput languageId source stdin (limitPatterns toBits limits))

/-- Numbers below the bound of their bytes are framed. -/
theorem framed_toLeBytes {count bound : ℕ} (hbound : bound ≤ 256 ^ count) :
    Framed fun n : {n : ℕ // n < bound} => toLeBytes count n.1 := by
  refine framed_of_length count (fun n => toLeBytes_length count n.1) fun m n h => ?_
  exact Subtype.ext ((toLeBytes_inj (m.2.trans_le hbound) (n.2.trans_le hbound)).mp h)

/-- The four bytes of a number of 32 bits are framed. -/
theorem framed_uint32 : Framed fun n : UInt32 => toLeBytes 4 n.toNat := by
  refine framed_of_length 4 (fun n => toLeBytes_length 4 n.toNat) fun m n h => ?_
  exact UInt32.toNat_inj.mp ((toLeBytes_inj m.toNat_lt n.toNat_lt).mp h)

/-- The eight bytes of a number of 64 bits are framed. -/
theorem framed_uint64 : Framed fun n : UInt64 => toLeBytes 8 n.toNat := by
  refine framed_of_length 8 (fun n => toLeBytes_length 8 n.toNat) fun m n h => ?_
  exact UInt64.toNat_inj.mp ((toLeBytes_inj m.toNat_lt n.toNat_lt).mp h)

/-- A byte string behind its length is framed. -/
theorem framed_slice : Framed fun bytes : Slice => toLeBytes 8 bytes.1.length ++ bytes.1 :=
  framed_lengthPrefixed (framed_toLeBytes (by norm_num))

/-- The hashed bytes of the limits determine them. -/
theorem LimitPatterns.input_injective : Function.Injective LimitPatterns.input := by
  intro a b h
  simp only [LimitPatterns.input, List.append_assoc] at h
  obtain ⟨hcpu, h⟩ := framed_uint64 _ _ _ _ h
  obtain ⟨hwall, h⟩ := framed_uint64 _ _ _ _ h
  obtain ⟨hmemory, h⟩ := framed_uint32 _ _ _ _ h
  obtain ⟨hpids, h⟩ := framed_uint32 _ _ _ _ h
  obtain ⟨hstdout, h⟩ := framed_uint32 _ _ _ _ h
  obtain ⟨hstderr, h⟩ := framed_uint32 _ _ _ _ h
  have hnetwork : a.enableNetwork = b.enableNetwork := by
    cases ha : a.enableNetwork <;> cases hb : b.enableNetwork <;> simp [ha, hb] at h ⊢
  exact LimitPatterns.ext hcpu hwall hmemory hpids hstdout hstderr hnetwork

/-- What is hashed for a result key, in numbers of the width the program gives them. -/
@[ext]
structure ResultKeyFields where
  languageId : UInt32
  source : Slice
  stdin : Slice
  limits : LimitPatterns

/-- The hashed bytes of the fields. -/
def ResultKeyFields.input (fields : ResultKeyFields) : Bytes :=
  resultKeyInput fields.languageId.toNat fields.source.1 fields.stdin.1 fields.limits

/-- The hashed bytes as a mark and one field behind another. -/
theorem ResultKeyFields.input_eq (fields : ResultKeyFields) :
    fields.input = "zerocode/result/v1\x00".toUTF8.toList ++ (toLeBytes 4 fields.languageId.toNat ++
      ((toLeBytes 8 fields.source.1.length ++ fields.source.1) ++
        ((toLeBytes 8 fields.stdin.1.length ++ fields.stdin.1) ++ fields.limits.input))) := by
  simp only [ResultKeyFields.input, resultKeyInput, List.append_assoc]

/-- The hashed bytes determine the job. -/
theorem ResultKeyFields.input_injective : Function.Injective ResultKeyFields.input := by
  intro a b h
  rw [a.input_eq, b.input_eq, List.append_right_inj] at h
  obtain ⟨hid, h⟩ := framed_uint32 _ _ _ _ h
  obtain ⟨hsource, h⟩ := framed_slice _ _ _ _ h
  obtain ⟨hstdin, h⟩ := framed_slice _ _ _ _ h
  exact ResultKeyFields.ext hid hsource hstdin (LimitPatterns.input_injective h)

/-- What is hashed for a compile key, in numbers of the width the program gives them. -/
@[ext]
structure CompileKeyFields where
  languageId : UInt32
  source : Slice
  compileOptions : Slice

/-- The hashed bytes of the fields. -/
def CompileKeyFields.input (fields : CompileKeyFields) : Bytes :=
  compileKeyInput fields.languageId.toNat fields.source.1 fields.compileOptions.1

/-- The hashed bytes as a mark and one field behind another. -/
theorem CompileKeyFields.input_eq (fields : CompileKeyFields) :
    fields.input = "zerocode/compile/v1\x00".toUTF8.toList ++ (toLeBytes 4 fields.languageId.toNat ++
      ((toLeBytes 8 fields.source.1.length ++ fields.source.1) ++
        (toLeBytes 8 fields.compileOptions.1.length ++ fields.compileOptions.1))) := by
  simp only [CompileKeyFields.input, compileKeyInput, List.append_assoc]

/-- The hashed bytes determine the source and its options. -/
theorem CompileKeyFields.input_injective : Function.Injective CompileKeyFields.input := by
  intro a b h
  rw [a.input_eq, b.input_eq, List.append_right_inj] at h
  obtain ⟨hid, h⟩ := framed_uint32 _ _ _ _ h
  obtain ⟨hsource, h⟩ := framed_slice _ _ _ _ h
  exact CompileKeyFields.ext hid hsource (framed_slice.injective h)

end ZeroCode.Cache
