import JestMigration.Assertion
import JestMigration.Batch
import JestMigration.Callback
import JestMigration.ChangeSet
import JestMigration.ChangeSet.Render
import JestMigration.Context.Member
import JestMigration.Context.Use
import JestMigration.Decimal.Double
import JestMigration.Decimal.Literal
import JestMigration.Decimal.Shortest
import JestMigration.Diagnostic
import JestMigration.Directory
import JestMigration.Edit
import JestMigration.Failure
import JestMigration.Framework
import JestMigration.Grammar
import JestMigration.Import
import JestMigration.Invocation
import JestMigration.Json
import JestMigration.Json.Fault
import JestMigration.Json.Numeral
import JestMigration.Main
import JestMigration.Migration
import JestMigration.Modifier
import JestMigration.Options
import JestMigration.Options.Config
import JestMigration.Path
import JestMigration.Plan
import JestMigration.Program
import JestMigration.Registration
import JestMigration.Rule
import JestMigration.Scope.Build
import JestMigration.Scope.Pattern
import JestMigration.Scope.Resolve
import JestMigration.Scope.Table
import JestMigration.Source
import JestMigration.Source.Lines
import JestMigration.Span
import JestMigration.Syntax.Listing
import JestMigration.Syntax.Node
import JestMigration.Syntax.Shape
import JestMigration.Syntax.Tree
import JestMigration.Text.Alphabetic
import JestMigration.Text.Blank
import JestMigration.Text.LowerCase
import JestMigration.Text.Numeric
import JestMigration.Text.Ranges
import JestMigration.Text.Visible
import JestMigration.Toml.Document
import JestMigration.Toml.Number
import JestMigration.Toml.Reader
import JestMigration.Toml.Table
import JestMigration.Proofs.Syntax.Position
import JestMigration.Proofs.Source.Slice
import JestMigration.Proofs.Source.Growth
import JestMigration.Proofs.Syntax.Nesting
import JestMigration.Proofs.ChangeSet.Recording
import JestMigration.Proofs.ChangeSet.Calls
import JestMigration.Proofs.Scope.Sound
import JestMigration.Proofs.Callback.Changes
import JestMigration.Proofs.Migration.Sites
import JestMigration.Proofs.ChangeSet.Rendering
import JestMigration.Proofs.Migration.Detection
import JestMigration.Proofs.Migration.Frame
import JestMigration.Proofs.Callback.Coverage
import JestMigration.Proofs.Callback.Dangling
import JestMigration.Proofs.Callback.Shadowing
import JestMigration.Proofs.Scope.Build
import JestMigration.Proofs.Scope.Resolve
import JestMigration.Proofs.Scope.Lookup
import JestMigration.Proofs.Scope.Visit
import JestMigration.Proofs.ChangeSet.Layout
import JestMigration.Proofs.ChangeSet.Copying
import JestMigration.Proofs.Scope.Binders
import JestMigration.Proofs.ChangeSet.Order
import JestMigration.Proofs.Diagnostic.Sorting
import JestMigration.Proofs.Callback.Reports
import JestMigration.Proofs.Migration.Marks
import JestMigration.Proofs.Callback.Holding
import JestMigration.Proofs.Migration.Ownership
import JestMigration.Proofs.Migration.Independence
import JestMigration.Proofs.Callback.Hygiene
import JestMigration.Proofs.Directory.Writing
import JestMigration.Proofs.Batch.Isolation
import JestMigration.Proofs.ChangeSet.Traversal
import JestMigration.Proofs.ChangeSet.Outcome
import JestMigration.Proofs.Callback.Members
import JestMigration.Proofs.Callback.Completion
import JestMigration.Proofs.Modifier.Normalization
import JestMigration.Proofs.Callback.Removal
import JestMigration.Proofs.ChangeSet.Locality
import JestMigration.Proofs.Assertion.Rewriting
import JestMigration.Proofs.Scope.References
import JestMigration.Proofs.Diagnostic.SourceOrder
import JestMigration.Proofs.Migration.Bindings
import JestMigration.Proofs.Callback.Uses
import JestMigration.Proofs.Callback.Rejections
import JestMigration.Proofs.Callback.Named
import JestMigration.Proofs.Callback.Unmapped
import JestMigration.Proofs.Source.OwnLine
import JestMigration.Proofs.ChangeSet.Deletion
import JestMigration.Proofs.Source.Returns
import JestMigration.Proofs.Migration.Preorder
