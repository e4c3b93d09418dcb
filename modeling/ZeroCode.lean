import ZeroCode.Api.AppliedLimits
import ZeroCode.Api.BatchCreate
import ZeroCode.Api.BatchOrder
import ZeroCode.Api.BatchSingle
import ZeroCode.Api.BatchView
import ZeroCode.Api.CacheTransparency
import ZeroCode.Api.CachedView
import ZeroCode.Api.CallbackAddress
import ZeroCode.Api.CallbackUrl
import ZeroCode.Api.Channel
import ZeroCode.Api.Create
import ZeroCode.Api.CreateMoves
import ZeroCode.Api.Creation
import ZeroCode.Api.FinishedRow
import ZeroCode.Api.Gradeable
import ZeroCode.Api.HashPreimages
import ZeroCode.Api.Idempotency
import ZeroCode.Api.KeyConflicts
import ZeroCode.Api.LanguageHealth
import ZeroCode.Api.LanguageSync
import ZeroCode.Api.Listing
import ZeroCode.Api.OwnVerdicts
import ZeroCode.Api.PayloadModes
import ZeroCode.Api.ResolvedLimits
import ZeroCode.Api.ResultCache
import ZeroCode.Api.RowInvariant
import ZeroCode.Api.Shedding
import ZeroCode.Api.StatusColumns
import ZeroCode.Api.Stream
import ZeroCode.Api.StreamRun
import ZeroCode.Api.Submission
import ZeroCode.Api.Views
import ZeroCode.Api.WaitForCompletion
import ZeroCode.Cache.CompileKey
import ZeroCode.Cache.ResultKey
import ZeroCode.Core.Language
import ZeroCode.Core.Payload
import ZeroCode.Core.Registry
import ZeroCode.Core.SinglePrecision
import ZeroCode.Core.Status
import ZeroCode.Core.StatusJson
import ZeroCode.Core.Ulid
import ZeroCode.Foundation.AddressBlock
import ZeroCode.Foundation.Base64
import ZeroCode.Foundation.CommonSubsequence
import ZeroCode.Foundation.DescriptorTable
import ZeroCode.Foundation.Fallible
import ZeroCode.Foundation.FileTree
import ZeroCode.Foundation.FixedDigits
import ZeroCode.Foundation.FlatKeyed
import ZeroCode.Foundation.Framing
import ZeroCode.Foundation.Grouping
import ZeroCode.Foundation.Incremental
import ZeroCode.Foundation.Json
import ZeroCode.Foundation.JsonText
import ZeroCode.Foundation.Lines
import ZeroCode.Foundation.Listener
import ZeroCode.Foundation.MountTable
import ZeroCode.Foundation.Notify
import ZeroCode.Foundation.OrderedStore
import ZeroCode.Foundation.Paging
import ZeroCode.Foundation.PathWalk
import ZeroCode.Foundation.Percentile
import ZeroCode.Foundation.Potential
import ZeroCode.Foundation.ProcessTable
import ZeroCode.Foundation.Semaphore
import ZeroCode.Foundation.Simultaneous
import ZeroCode.Foundation.Table
import ZeroCode.Foundation.Template
import ZeroCode.Foundation.Text
import ZeroCode.Foundation.TextDecoder
import ZeroCode.Foundation.Transition
import ZeroCode.Foundation.Upsert
import ZeroCode.Foundation.UrlEncoded
import ZeroCode.Sandbox.Artifact
import ZeroCode.Sandbox.Backends
import ZeroCode.Sandbox.Capture
import ZeroCode.Sandbox.Child
import ZeroCode.Sandbox.Command
import ZeroCode.Sandbox.CompileDecision
import ZeroCode.Sandbox.CompileOutput
import ZeroCode.Sandbox.CompileVerdict
import ZeroCode.Sandbox.Descriptors
import ZeroCode.Sandbox.Draining
import ZeroCode.Sandbox.ErrorPaths
import ZeroCode.Sandbox.Execute
import ZeroCode.Sandbox.FileAccess
import ZeroCode.Sandbox.Handshake
import ZeroCode.Sandbox.HarnessFault
import ZeroCode.Sandbox.Mounts
import ZeroCode.Sandbox.Outcome
import ZeroCode.Sandbox.PhaseOrder
import ZeroCode.Sandbox.Phases
import ZeroCode.Sandbox.PipeIsolation
import ZeroCode.Sandbox.Placeholders
import ZeroCode.Sandbox.RunVerdict
import ZeroCode.Sandbox.StreamIsolation
import ZeroCode.Sandbox.Substitution
import ZeroCode.Sandbox.TokenResources
import ZeroCode.Sandbox.Triage
import ZeroCode.Sandbox.TriageCoherence
import ZeroCode.Sandbox.WallBudget
import ZeroCode.Sandbox.Wasm
import ZeroCode.Web.Client
import ZeroCode.Web.ComparisonModes
import ZeroCode.Web.EventStream
import ZeroCode.Web.EventWire
import ZeroCode.Web.LineDiff
import ZeroCode.Web.LiveOutput
import ZeroCode.Web.OutputText
import ZeroCode.Web.OwnResults
import ZeroCode.Web.ShareLink
import ZeroCode.Web.StopOnFail
import ZeroCode.Web.TestBuckets
import ZeroCode.Web.TestFiles
import ZeroCode.Web.TestsPanel
import ZeroCode.Web.TextCodec
import ZeroCode.Web.TidyDocument
import ZeroCode.Worker.Admission
import ZeroCode.Worker.Announcement
import ZeroCode.Worker.ArtifactCache
import ZeroCode.Worker.Callback
import ZeroCode.Worker.CallbackCoverage
import ZeroCode.Worker.ClaimAge
import ZeroCode.Worker.ClaimOrder
import ZeroCode.Worker.Finality
import ZeroCode.Worker.Fleet
import ZeroCode.Worker.GracefulDrain
import ZeroCode.Worker.Identity
import ZeroCode.Worker.LiveGuards
import ZeroCode.Worker.MemoryCeiling
import ZeroCode.Worker.OwnedChildren
import ZeroCode.Worker.PhaseBilling
import ZeroCode.Worker.Provenance
import ZeroCode.Worker.Reaper
import ZeroCode.Worker.Recovery
import ZeroCode.Worker.Request
import ZeroCode.Worker.Retention
import ZeroCode.Worker.Rows
import ZeroCode.Worker.Runner
import ZeroCode.Worker.Shutdown
import ZeroCode.Worker.Wakeups
import ZeroCode.Worker.Webhook
