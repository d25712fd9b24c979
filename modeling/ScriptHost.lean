import ScriptHost.Adapter.Inspect
import ScriptHost.Main
import ScriptHost.Session.Basic
import ScriptHost.Proofs.Scope.Direct
import ScriptHost.Proofs.Scope.Batch
import ScriptHost.Proofs.Scope.Watching
import ScriptHost.Proofs.Code.Definite
import ScriptHost.Proofs.Code.Flags
import ScriptHost.Proofs.Code.Termination
import ScriptHost.Proofs.Scope.Evaluation
import ScriptHost.Proofs.Scope.Sharing
import ScriptHost.Proofs.Scope.Deoptimization
import ScriptHost.Proofs.Scope.Progress
import ScriptHost.Proofs.Scope.Emission
import ScriptHost.Proofs.Scope.Cache
import ScriptHost.Proofs.Scope.Attribution
import ScriptHost.Proofs.Json.Text
import ScriptHost.Proofs.Adapter.AnnotationText
import ScriptHost.Proofs.Adapter.ClassFile
import ScriptHost.Proofs.Adapter.Cursor
import ScriptHost.Proofs.Adapter.Modules
import ScriptHost.Proofs.Adapter.SandboxRuns
import ScriptHost.Proofs.Adapter.Visibility
import ScriptHost.Proofs.Adapter.Loading
import ScriptHost.Proofs.Adapter.Serving
import ScriptHost.Proofs.Adapter.Handles
import ScriptHost.Proofs.Adapter.Requests
import ScriptHost.Proofs.Adapter.Grants
import ScriptHost.Proofs.Engine.Scopes
import ScriptHost.Proofs.Code.Assumptions
import ScriptHost.Proofs.Scope.Containment
import ScriptHost.Proofs.Scope.Finishing
import ScriptHost.Proofs.Adapter.Admission
import ScriptHost.Proofs.Adapter.Coverage
import ScriptHost.Proofs.Adapter.Dispatch
import ScriptHost.Proofs.Adapter.Defining
import ScriptHost.Proofs.Adapter.Dumping
import ScriptHost.Proofs.Engine.Effects
import ScriptHost.Proofs.Adapter.Supplying
import ScriptHost.Proofs.Adapter.ClassRequests
import ScriptHost.Proofs.Adapter.Failures
import ScriptHost.Proofs.Adapter.Caching
import ScriptHost.Proofs.Engine.Binding
import ScriptHost.Proofs.Scope.Meaning
import ScriptHost.Proofs.Scope.Restamping
import ScriptHost.Proofs.Scope.Policy
import ScriptHost.Proofs.Scope.Validation
import ScriptHost.Proofs.Scope.Termination
import ScriptHost.Proofs.Adapter.Naming
import ScriptHost.Proofs.Scope.Refusal
import ScriptHost.Proofs.Adapter.Truncation
import ScriptHost.Proofs.Adapter.AnnotationLength
import ScriptHost.Proofs.Adapter.Rewriting
import ScriptHost.Proofs.Adapter.Overflow
import ScriptHost.Proofs.Adapter.Generated
import ScriptHost.Proofs.Dump.Placement
import ScriptHost.Proofs.Scope.Depth
import ScriptHost.Proofs.Engine.Speculation
import ScriptHost.Proofs.Scope.Arguments
