import Stencil.Main
import Stencil.Failure.View
import Stencil.Context.View
import Stencil.Command.Program
import Stencil.Command.Inputs
import Stencil.Command.Options
import Stencil.Command.Shell
import Stencil.Log.Basic
import Stencil.Settings.Layers
import Stencil.Context.Store
import Stencil.Settings.View
import Stencil.Template.View
import Stencil.Suite.Run
import Stencil.Suite.Report
import Stencil.Suite.Verify
import Stencil.Suite.Read
import Stencil.Dataset.Shelf
import Stencil.Yaml.Read
import Stencil.Engine.Prompt
import Stencil.Engine.Validate
import Stencil.Plugin.Reference
import Stencil.Judgment.Judge
import Stencil.Settings.Read
import Stencil.Render
import Stencil.Context.Resolve
import Stencil.Files.Path
import Stencil.Import.Loader
import Stencil.Variable
import Stencil.Pattern.Read
import Stencil.Pattern.Search
import Stencil.Template.Parse
import Stencil.Template.Walk
import Stencil.Template.Outline
import Stencil.Source.Tokens
import Stencil.Source.Scan
import Stencil.Json.Writer
import Stencil.Json.Reader
import Stencil.Number.Decimal
import Stencil.Text.Quoted
import Stencil.Text.Search
import Stencil.Text.Character
import Stencil.Text.Word
import Stencil.Text.Identifier
import Stencil.Text.Fold
import Stencil.Text.Case
import Stencil.Proofs.Template.Reading
import Stencil.Proofs.Template.Grammar
import Stencil.Proofs.Source.Tokens
import Stencil.Proofs.Template.Soundness
import Stencil.Proofs.Template.Completeness
import Stencil.Proofs.Template.Language
import Stencil.Proofs.Template.Located
import Stencil.Proofs.Template.Hollow
import Stencil.Proofs.Template.Display
import Stencil.Proofs.Template.Forest
import Stencil.Proofs.Template.Traversal
import Stencil.Proofs.Template.Derived
import Stencil.Proofs.Context.Binding
import Stencil.Proofs.Variable
import Stencil.Proofs.Render
import Stencil.Proofs.Evaluation.Outcome
import Stencil.Proofs.Evaluation.Growth
import Stencil.Proofs.Evaluation.Calls
import Stencil.Proofs.Evaluation.Strict
import Stencil.Proofs.Evaluation.Direct
import Stencil.Proofs.Value.Written
import Stencil.Proofs.Evaluation.Discipline
import Stencil.Proofs.Evaluation.Course
import Stencil.Proofs.Evaluation.Coupling
import Stencil.Proofs.Evaluation.Entry
import Stencil.Proofs.Evaluation.Ending
import Stencil.Proofs.Evaluation.Lookups
import Stencil.Proofs.Evaluation.Untaken
import Stencil.Proofs.Evaluation.Laziness
import Stencil.Proofs.Import.Confinement
import Stencil.Proofs.Engine.Registration
import Stencil.Proofs.Evaluation.Origins
import Stencil.Proofs.Evaluation.Causes
import Stencil.Proofs.Engine.Validation
import Stencil.Proofs.Evaluation.Shape
import Stencil.Proofs.Source.Lexeme
import Stencil.Proofs.Template.Written
import Stencil.Proofs.Template.Quoted
import Stencil.Proofs.Template.Bare
import Stencil.Proofs.Source.Shift
import Stencil.Proofs.Source.Boundary
import Stencil.Proofs.Template.Fuel
import Stencil.Proofs.Template.Sight
import Stencil.Proofs.Template.Mirrored
import Stencil.Proofs.Template.Closing
import Stencil.Proofs.Template.Concatenation
import Stencil.Proofs.Evaluation.Rest
import Stencil.Proofs.Context.Store
import Stencil.Proofs.Context.Path
import Stencil.Proofs.Context.Exchange
import Stencil.Proofs.Context.Batch
import Stencil.Proofs.Number.Rounding
import Stencil.Proofs.Json.Number
import Stencil.Proofs.Json.Read
import Stencil.Proofs.Judgment.Canonical
import Stencil.Proofs.Judgment.Key
import Stencil.Proofs.Judgment.Sharing
import Stencil.Proofs.Source.Layout
import Stencil.Proofs.Files.Path
import Stencil.Proofs.Files.Tree
import Stencil.Proofs.Yaml.Written
import Stencil.Proofs.Dataset.Written
import Stencil.Proofs.Dataset.Shelf
import Stencil.Proofs.Suite.Step
import Stencil.Proofs.Suite.Run
import Stencil.Proofs.Command.Run
import Stencil.Proofs.Command.Template
import Stencil.Proofs.Source.Stages
import Stencil.Proofs.Source.Inside
import Stencil.Proofs.Template.Account
import Stencil.Proofs.Template.Proper
import Stencil.Proofs.Template.Recovery
import Stencil.Proofs.Template.Constructs
import Stencil.Proofs.Template.Bodies
import Stencil.Proofs.Template.Reports
import Stencil.Proofs.Template.Tiling
import Stencil.Proofs.Source.Literal
import Stencil.Proofs.Number.Order
import Stencil.Proofs.Judgment.History
import Stencil.Proofs.Operator.Options
import Stencil.Proofs.Operator.Builtin
import Stencil.Proofs.Number.Whole
import Stencil.Proofs.Number.Spelled
import Stencil.Proofs.Operator.Comparison
import Stencil.Proofs.Value.Number
import Stencil.Proofs.Evaluation.Laws
import Stencil.Proofs.Variable.Route
import Stencil.Proofs.Suite.Read
import Stencil.Proofs.Xml.Reader
import Stencil.Proofs.Suite.Report
import Stencil.Proofs.Suite.Cases
import Stencil.Proofs.Yaml.Scalar
import Stencil.Proofs.Yaml.Keys
import Stencil.Proofs.Yaml.Number
import Stencil.Proofs.Yaml.Date
import Stencil.Proofs.Yaml.Tokens
import Stencil.Proofs.Yaml.Tree
import Stencil.Proofs.Import.VirtualRoot
import Stencil.Proofs.Text.Newlines
import Stencil.Proofs.Yaml.Values
import Stencil.Proofs.Dataset.Golden
import Stencil.Proofs.Suite.Independence
