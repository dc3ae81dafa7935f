import Pipework.Error.Naming
import Pipework.Program.Template
import Pipework.Script.Label
import Pipework.Script.Reading
import Pipework.Script.View
import Pipework.Proofs.Registration.Race
import Pipework.Proofs.Text.Number
import Pipework.Proofs.Registration.Numbering
import Pipework.Proofs.Registration.Distinct
import Pipework.Proofs.Json.Compact
import Pipework.Proofs.CacheKey.Message
import Pipework.Proofs.CacheKey.Computation
import Pipework.Proofs.CacheKey.Invalidation
import Pipework.Proofs.Dispatch.Overlap
import Pipework.Proofs.Event
import Pipework.Proofs.Traversal
import Pipework.Proofs.VersionHash.Text
import Pipework.Proofs.Graph.Coherent
import Pipework.Proofs.Graph.Thread
import Pipework.Proofs.CacheKey.Deployment
import Pipework.Proofs.Pipeline.Compilation
import Pipework.Proofs.Program.Preparation
import Pipework.Proofs.Pipeline.Identity
import Pipework.Proofs.Dict.Filling
import Pipework.Proofs.Graph.Fitting
import Pipework.Proofs.Pipeline.Structure
import Pipework.Proofs.Config.Precedence
import Pipework.Proofs.Dispatch.Requests
import Pipework.Proofs.Program.Isolation
import Pipework.Proofs.Dispatch.Progress
import Pipework.Proofs.Dispatch.Integrity
import Pipework.Proofs.Dispatch.History
import Pipework.Proofs.Config.Names
import Pipework.Proofs.Config.SettingKey
import Pipework.Proofs.Dispatch.CodeReference
import Pipework.Proofs.Dispatch.Versions
import Pipework.Proofs.Graph.Renaming
import Pipework.Proofs.Pipeline.Acceptance
import Pipework.Proofs.Pipeline.Renaming
import Pipework.Proofs.Program.Passes
import Pipework.Proofs.CacheKey.Transparency
import Pipework.Proofs.Dispatch.Sequence
import Pipework.Proofs.Program.Nesting
import Pipework.Proofs.Time.Calendar
import Pipework.Proofs.Time.Text
import Pipework.Proofs.Document.Uuid
import Pipework.Proofs.Document.Fields
import Pipework.Proofs.Document.Deployment
import Pipework.Proofs.Dispatch.ReadBack
import Pipework.Proofs.Document.Configuration
import Pipework.Proofs.Store.Growth
import Pipework.Proofs.Registration.Newer
import Pipework.Proofs.Program.Template
import Pipework.Proofs.Build.Order
import Pipework.Proofs.Build.Images
import Pipework.Proofs.Build.Selection
import Pipework.Proofs.Registration.Losses
import Pipework.Proofs.CacheKey.Termination
import Pipework.Proofs.Json.Merge
import Pipework.Proofs.Config.Layering
import Pipework.Proofs.Graph.Naming
import Pipework.Proofs.Digest.Content
import Pipework.Proofs.Graph.Exhaustion
import Pipework.Proofs.VersionHash.Structure
import Pipework.Proofs.Pipeline.Wiring
import Pipework.Proofs.Config.Idempotence
import Pipework.Proofs.Graph.Exclusion
import Pipework.Proofs.Program.Consistency
import Pipework.Proofs.Code.Path
import Pipework.Proofs.Code.Checkout
import Pipework.Proofs.Text.Replace
import Pipework.Proofs.Config.Source
import Pipework.Proofs.Config.RunName
import Pipework.Proofs.Store.DefaultStack
