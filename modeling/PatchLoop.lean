import PatchLoop.Lib.Run
import PatchLoop.Store.EffectSpec
import PatchLoop.Store.RecoverySpec
import PatchLoop.Store.LeaseSpec
import PatchLoop.Store.SessionSpec
import PatchLoop.Store.Migration
import PatchLoop.Store.Frame
import PatchLoop.Lib.Lease
import PatchLoop.Store.LeaseChanges
import PatchLoop.Safety.WorkspaceLease
import PatchLoop.Store.Fence
import PatchLoop.Safety.ExecutionLease
import PatchLoop.Store.EffectChanges
import PatchLoop.Safety.Lifecycle
import PatchLoop.Safety.ExactApproval
import PatchLoop.Store.TaskChanges
import PatchLoop.Safety.Fencing
import PatchLoop.Safety.WorkspaceFencing
import PatchLoop.Safety.RecoveryGate
import PatchLoop.Store.JournalChanges
import PatchLoop.Context.Engine
import PatchLoop.Execution.Ownership
import PatchLoop.Json.RoundTrip
import PatchLoop.Lib.Buckets
import PatchLoop.Lib.Fallible
import PatchLoop.Lib.Numbered
import PatchLoop.Lib.Patches
import PatchLoop.Lib.Process
import PatchLoop.Lib.Sequences
import PatchLoop.Memory.Compression
import PatchLoop.PromptCache.Coordinator
import PatchLoop.Runtime.CallRuns
import PatchLoop.Safety.ActiveTask
import PatchLoop.Safety.ApprovalRenewal
import PatchLoop.Safety.Confirmation
import PatchLoop.Safety.LoadableTasks
import PatchLoop.Safety.MemoryCompression
import PatchLoop.Safety.PairedCalls
import PatchLoop.Safety.PublishedMemory
import PatchLoop.Safety.RecoveryDeadEnd
import PatchLoop.Safety.RequestShape
import PatchLoop.Safety.SessionJournal
import PatchLoop.Safety.SoundConversation
import PatchLoop.Safety.Submissions
import PatchLoop.Safety.ToolPairing
import PatchLoop.Safety.VerifiedCleanup
import PatchLoop.Context.TaskMemory
import PatchLoop.Safety.ContextBudget
import PatchLoop.Lib.Occurrences
import PatchLoop.Safety.PreparedExecution
import PatchLoop.Tools.Write
import PatchLoop.Safety.EditedFiles
import PatchLoop.Safety.ProjectedFiles
import PatchLoop.Events
import PatchLoop.Json.Separators
import PatchLoop.Safety.TraceLog
import PatchLoop.EventExport
import PatchLoop.Lib.Patterns
import PatchLoop.Lib.Register
import PatchLoop.Memory.Episodes
import PatchLoop.Memory.Episodic
import PatchLoop.Memory.Semantic
import PatchLoop.Memory.Working
import PatchLoop.PromptCache.Epoch
import PatchLoop.Redaction
import PatchLoop.Safety.CompressedFacts
import PatchLoop.Safety.DuplicateReads
import PatchLoop.Safety.FactRuns
import PatchLoop.Safety.FailedActions
import PatchLoop.Safety.JournalExport
import PatchLoop.Safety.LastFact
import PatchLoop.Safety.RepeatedContent
import PatchLoop.Memory.Extraction
import PatchLoop.Memory.Manager
import PatchLoop.Safety.KeptFacts
import PatchLoop.Lib.Paths
import PatchLoop.Tools.Execute
import PatchLoop.Safety.TestPaths
import PatchLoop.Lib.Difflib
import PatchLoop.Changes
import PatchLoop.Execution.Sandbox
import PatchLoop.Safety.CommandCleanup
import PatchLoop.Safety.DiffFacts
import PatchLoop.Lib.Interning
import PatchLoop.Memory.Store
import PatchLoop.Lib.Replay
import PatchLoop.Safety.RebuiltEpisodes
import PatchLoop.Safety.MemoryBatches
import PatchLoop.Safety.FittedMemory
import PatchLoop.Lib.Chains
import PatchLoop.Safety.SupersessionChains
import PatchLoop.Lib.Datetimes
import PatchLoop.Safety.TimestampOrder
import PatchLoop.Intelligence.Index
import PatchLoop.Safety.IsolatedFiles
import PatchLoop.Safety.CredentialBindings
import PatchLoop.Safety.ResumedControls
import PatchLoop.Lib.Versions
import PatchLoop.Safety.RowVersions
import PatchLoop.Safety.QuietJournal
import PatchLoop.Lib.Shedding
import PatchLoop.Memory.WorkingMemory
import PatchLoop.Safety.WorkingBudget
import PatchLoop.Json.Sizes
import PatchLoop.Safety.WorkingEviction
import PatchLoop.Safety.RestoredMemory
import PatchLoop.Lib.Selection
import PatchLoop.Memory.Retrieval
import PatchLoop.Safety.RetrievalBudget
import PatchLoop.Safety.Retrieval
import PatchLoop.Safety.RetrievalOrder
import PatchLoop.Safety.RetrievedFacts
import PatchLoop.Safety.ProviderView
