import Nteract.Agent.Lifecycle
import Nteract.Agent.QueueMirror
import Nteract.Agent.Submission
import Nteract.BlobUpload.Theorems
import Nteract.BokehOutbox
import Nteract.BokehReplacement
import Nteract.Comments
import Nteract.ConfirmSync
import Nteract.DiskGuard.Theorems
import Nteract.Durability.Heads
import Nteract.Durability.Idempotence
import Nteract.EnvDrift
import Nteract.EnvHash
import Nteract.ExternalSource.Theorems
import Nteract.Framing
import Nteract.Guarded.Readers
import Nteract.Guarded.Theorems
import Nteract.Kernel.Queue
import Nteract.Kernel.Sends
import Nteract.KeyedDoc.Epochs
import Nteract.Lifecycle.Conflict
import Nteract.MarkdownAnchors
import Nteract.MemoryLedger
import Nteract.OutputDiff
import Nteract.OutputOrder.DisplayIndex
import Nteract.OutputOrder.Trim
import Nteract.Outputs.Segments
import Nteract.Outputs.Streams.Complete
import Nteract.PersistDebouncer
import Nteract.Registry.Theorems
import Nteract.RuntimePolicy.Histories
import Nteract.SaveProtocol.Agreement
import Nteract.Store.Compaction
import Nteract.Store.Refinement
import Nteract.StringSearch
import Nteract.TrustedPackages.Approval
import Nteract.Temporal
