import Shadeloom.Arithmetic.Basic
import Shadeloom.Arithmetic.Doubles
import Shadeloom.Bisect
import Shadeloom.Build.Cleanup
import Shadeloom.Build.Error
import Shadeloom.Build.Lowering
import Shadeloom.Build.Options
import Shadeloom.Build.Recipe
import Shadeloom.Build.Scope
import Shadeloom.Build.Settings
import Shadeloom.Build.Statements
import Shadeloom.CommandLine.Arguments
import Shadeloom.CommandLine.Command
import Shadeloom.CommandLine.Run
import Shadeloom.Compile
import Shadeloom.Decimal.Layout
import Shadeloom.Decimal.Magnitude
import Shadeloom.Decimal.Reader
import Shadeloom.Decimal.Rounded
import Shadeloom.Decimal.Shortest
import Shadeloom.Evaluation.Machine
import Shadeloom.Evaluation.Operator
import Shadeloom.Expr.Basic
import Shadeloom.Expr.Literal
import Shadeloom.Expr.Stored
import Shadeloom.Expr.Sugar
import Shadeloom.Expr.Variable
import Shadeloom.Function
import Shadeloom.Graph.Assembly
import Shadeloom.Graph.Basic
import Shadeloom.Graph.Link
import Shadeloom.Graph.Order
import Shadeloom.Graph.Slots
import Shadeloom.Graph.Stored
import Shadeloom.Graph.Tangle
import Shadeloom.Json.Basic
import Shadeloom.Json.Codec
import Shadeloom.Json.Number
import Shadeloom.Json.Printer
import Shadeloom.Json.Reader
import Shadeloom.Json.Token
import Shadeloom.Main
import Shadeloom.Node.Basic
import Shadeloom.Node.Op
import Shadeloom.Node.Opcode
import Shadeloom.Node.Settings
import Shadeloom.Proofs.Arithmetic.Fractions
import Shadeloom.Proofs.Arithmetic.Order
import Shadeloom.Proofs.Arithmetic.Signs
import Shadeloom.Proofs.Arithmetic.Zeros
import Shadeloom.Proofs.Build.Agreement
import Shadeloom.Proofs.Build.Alignment
import Shadeloom.Proofs.Build.Bare
import Shadeloom.Proofs.Build.BlockStructure
import Shadeloom.Proofs.Build.Blocks
import Shadeloom.Proofs.Build.Choices
import Shadeloom.Proofs.Build.Closing
import Shadeloom.Proofs.Build.Computing
import Shadeloom.Proofs.Build.Correctness
import Shadeloom.Proofs.Build.DeadNodes
import Shadeloom.Proofs.Build.Defaults
import Shadeloom.Proofs.Build.Definitions
import Shadeloom.Proofs.Build.Doubles
import Shadeloom.Proofs.Build.Duplicates
import Shadeloom.Proofs.Build.Feeding
import Shadeloom.Proofs.Build.Fitting
import Shadeloom.Proofs.Build.Folding
import Shadeloom.Proofs.Build.GraphErrors
import Shadeloom.Proofs.Build.Inlining
import Shadeloom.Proofs.Build.InputNames
import Shadeloom.Proofs.Build.Instances
import Shadeloom.Proofs.Build.Interleaving
import Shadeloom.Proofs.Build.Likeness
import Shadeloom.Proofs.Build.Linking
import Shadeloom.Proofs.Build.Lowering
import Shadeloom.Proofs.Build.MatchedInstances
import Shadeloom.Proofs.Build.Matching
import Shadeloom.Proofs.Build.MergeSteps
import Shadeloom.Proofs.Build.MergedInputs
import Shadeloom.Proofs.Build.MergedValues
import Shadeloom.Proofs.Build.Merging
import Shadeloom.Proofs.Build.Mirroring
import Shadeloom.Proofs.Build.Needs
import Shadeloom.Proofs.Build.Nesting
import Shadeloom.Proofs.Build.Noting
import Shadeloom.Proofs.Build.Omissions
import Shadeloom.Proofs.Build.Operations
import Shadeloom.Proofs.Build.Outcomes
import Shadeloom.Proofs.Build.Outputs
import Shadeloom.Proofs.Build.Parameters
import Shadeloom.Proofs.Build.Planning
import Shadeloom.Proofs.Build.Pruning
import Shadeloom.Proofs.Build.Ramps
import Shadeloom.Proofs.Build.Reaching
import Shadeloom.Proofs.Build.Reading
import Shadeloom.Proofs.Build.Realization
import Shadeloom.Proofs.Build.Realizing
import Shadeloom.Proofs.Build.Recipes
import Shadeloom.Proofs.Build.Redirecting
import Shadeloom.Proofs.Build.Refusals
import Shadeloom.Proofs.Build.Relinking
import Shadeloom.Proofs.Build.Reordering
import Shadeloom.Proofs.Build.Repeating
import Shadeloom.Proofs.Build.Reporting
import Shadeloom.Proofs.Build.Requests
import Shadeloom.Proofs.Build.Rereading
import Shadeloom.Proofs.Build.Resolving
import Shadeloom.Proofs.Build.Saving
import Shadeloom.Proofs.Build.Scopes
import Shadeloom.Proofs.Build.SelfContained
import Shadeloom.Proofs.Build.Settling
import Shadeloom.Proofs.Build.Sharing
import Shadeloom.Proofs.Build.ShownInputs
import Shadeloom.Proofs.Build.Sockets
import Shadeloom.Proofs.Build.Sparing
import Shadeloom.Proofs.Build.Statements
import Shadeloom.Proofs.Build.Steps
import Shadeloom.Proofs.Build.Supplying
import Shadeloom.Proofs.Build.Thinning
import Shadeloom.Proofs.Build.Trimming
import Shadeloom.Proofs.Build.Values
import Shadeloom.Proofs.Build.Wiring
import Shadeloom.Proofs.Build.WrittenDefaults
import Shadeloom.Proofs.Evaluation.Factors
import Shadeloom.Proofs.Evaluation.Limits
import Shadeloom.Proofs.Evaluation.Nesting
import Shadeloom.Proofs.Evaluation.Orders
import Shadeloom.Proofs.Evaluation.Refusals
import Shadeloom.Proofs.Evaluation.Rereading
import Shadeloom.Proofs.Evaluation.Restarting
import Shadeloom.Proofs.Evaluation.Sampling
import Shadeloom.Proofs.Evaluation.Serving
import Shadeloom.Proofs.Evaluation.Stepping
import Shadeloom.Proofs.Evaluation.Sweep
import Shadeloom.Proofs.Evaluation.Typing
import Shadeloom.Proofs.Evaluation.Unused
import Shadeloom.Proofs.Evaluation.Valuation
import Shadeloom.Proofs.Expr.Checks
import Shadeloom.Proofs.Expr.Literals
import Shadeloom.Proofs.Expr.Meaning
import Shadeloom.Proofs.Expr.Numbers
import Shadeloom.Proofs.Expr.Parts
import Shadeloom.Proofs.Expr.Quotes
import Shadeloom.Proofs.Expr.Sameness
import Shadeloom.Proofs.Graph.Acyclic
import Shadeloom.Proofs.Graph.Counting
import Shadeloom.Proofs.Graph.Doubles
import Shadeloom.Proofs.Graph.Editing
import Shadeloom.Proofs.Graph.Edits
import Shadeloom.Proofs.Graph.Frames
import Shadeloom.Proofs.Graph.Growth
import Shadeloom.Proofs.Graph.History
import Shadeloom.Proofs.Graph.Layouts
import Shadeloom.Proofs.Graph.Mirror
import Shadeloom.Proofs.Graph.Numbers
import Shadeloom.Proofs.Graph.Order
import Shadeloom.Proofs.Graph.Ports
import Shadeloom.Proofs.Graph.Rereading
import Shadeloom.Proofs.Graph.Runnable
import Shadeloom.Proofs.Graph.Shapes
import Shadeloom.Proofs.Graph.Sound
import Shadeloom.Proofs.Graph.Storing
import Shadeloom.Proofs.Graph.Walk
import Shadeloom.Proofs.Json.Codecs
import Shadeloom.Proofs.Json.Lexing
import Shadeloom.Proofs.Json.Rereading
import Shadeloom.Proofs.Node.Stops
import Shadeloom.Proofs.Node.Storing
import Shadeloom.Proofs.Results
import Shadeloom.Proofs.Source.Balance
import Shadeloom.Proofs.Source.Blanks
import Shadeloom.Proofs.Source.Chains
import Shadeloom.Proofs.Source.Comparisons
import Shadeloom.Proofs.Source.Cuts
import Shadeloom.Proofs.Source.Including
import Shadeloom.Proofs.Source.Lines
import Shadeloom.Proofs.Source.Outlines
import Shadeloom.Proofs.Source.Parsing
import Shadeloom.Proofs.Source.Printing
import Shadeloom.Proofs.Source.RoundTrip
import Shadeloom.Proofs.Source.Suffixes
import Shadeloom.Proofs.Source.Words
import Shadeloom.Proofs.Source.Writing
import Shadeloom.Proofs.Tables
import Shadeloom.Source.Brackets
import Shadeloom.Source.Form
import Shadeloom.Source.Parser
import Shadeloom.Source.Statements
import Shadeloom.Table
import Shadeloom.Text.Blank
import Shadeloom.Text.Letters
import Shadeloom.Text.Lines
import Shadeloom.Validity
import Shadeloom.Value
