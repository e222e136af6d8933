import CodeFirst.Binary64.Reader
import CodeFirst.Document.Token
import CodeFirst.Json.Literal
import CodeFirst.Reflection
import CodeFirst.Schema.Sdl
import CodeFirst.Workspace.Step
import CodeFirst.Proofs.Keyed
import CodeFirst.Proofs.Compilation.Fields
import CodeFirst.Proofs.Compilation.Memo
import CodeFirst.Proofs.Compilation.Reach
import CodeFirst.Proofs.Compilation.Operations
import CodeFirst.Proofs.Compilation.Success
import CodeFirst.Proofs.Compilation.Closure
import CodeFirst.Proofs.Compilation.Acceptance
import CodeFirst.Proofs.Schema.Build
import CodeFirst.Proofs.Execution.Alignment
import CodeFirst.Proofs.Schema.Roots
import CodeFirst.Proofs.Compilation.Stitching
import CodeFirst.Proofs.Injector.Resolution
import CodeFirst.Proofs.Injector.Blueprint
import CodeFirst.Proofs.Injector.Construction
import CodeFirst.Proofs.Variables.Leaves
import CodeFirst.Proofs.Variables.Substitution
import CodeFirst.Proofs.Registry.Operations
import CodeFirst.Proofs.Registry.Standing
import CodeFirst.Proofs.Declaration.Normal
import CodeFirst.Proofs.Startup.Step
import CodeFirst.Proofs.Registry.Records
import CodeFirst.Proofs.Startup.History
import CodeFirst.Proofs.Compilation.Culprits
import CodeFirst.Proofs.Startup.Catalog
import CodeFirst.Proofs.Compilation.Agreement
import CodeFirst.Proofs.Startup.Isolation
import CodeFirst.Proofs.Startup.Completion
import CodeFirst.Proofs.Compilation.Binding
import CodeFirst.Proofs.Compilation.Density
import CodeFirst.Proofs.Injector.Discipline
import CodeFirst.Proofs.Injector.Unfolding
import CodeFirst.Proofs.Injector.Freshness
import CodeFirst.Proofs.Variables.Containment
import CodeFirst.Proofs.Compilation.Blame
import CodeFirst.Proofs.Execution.Parameters
import CodeFirst.Proofs.Declaration.Rules
import CodeFirst.Proofs.Declaration.Mismatch
import CodeFirst.Proofs.Declaration.CrossCheck
import CodeFirst.Proofs.Json.Readback
import CodeFirst.Proofs.Document.Token
import CodeFirst.Proofs.Variables.Fusion
import CodeFirst.Proofs.Value.Path
import CodeFirst.Proofs.Execution.Navigation
import CodeFirst.Proofs.Declaration.Idempotence
import CodeFirst.Proofs.Compilation.Depth
