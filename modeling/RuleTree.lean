import RuleTree.Number.Basic
import RuleTree.Text.Digit
import RuleTree.Text.Alphanumeric
import RuleTree.Text.Quoted
import RuleTree.Text.Name
import RuleTree.Text.Case
import RuleTree.Regex.Search
import RuleTree.Calendar.Iso
import RuleTree.Calendar.Reader
import RuleTree.Value.Display
import RuleTree.Rule.Tree
import RuleTree.Rule.Error
import RuleTree.Validator.Run
import RuleTree.Validator.OfTree
import RuleTree.Rule.Build
import RuleTree.Document.Reader
import RuleTree.Document.Form
import RuleTree.Document.RuleForm
import RuleTree.Document.Parser
import RuleTree.Document.Writer
import RuleTree.Schema
import RuleTree.Registry
import RuleTree.Settings
import RuleTree.Text.Utf8
import RuleTree.Json.Reader
import RuleTree.Yaml.Layout
import RuleTree.File.Document
import RuleTree.Main
import RuleTree.Proofs.Build.Nodes
import RuleTree.Proofs.Validator.Accepts
import RuleTree.Proofs.Number.Order
import RuleTree.Proofs.Value.Genuine
import RuleTree.Proofs.Rule.Meaning
import RuleTree.Proofs.Validator.Operands
import RuleTree.Proofs.Validator.Meaning
import RuleTree.Proofs.Rule.Places
import RuleTree.Proofs.Rule.Grammar
import RuleTree.Proofs.Build.WellFormed
import RuleTree.Proofs.Validator.Rejects
import RuleTree.Proofs.Validator.Location
import RuleTree.Proofs.Calendar.Digits
import RuleTree.Proofs.Calendar.RoundTrip
import RuleTree.Proofs.Rule.Fields
import RuleTree.Proofs.Document.Fields
import RuleTree.Proofs.Document.RoundTrip
import RuleTree.Proofs.Build.Reread
import RuleTree.Proofs.Document.Validators
import RuleTree.Proofs.Validator.Structure
import RuleTree.Proofs.Build.Faults
import RuleTree.Proofs.Build.Trail
import RuleTree.Proofs.Build.Site
import RuleTree.Proofs.Document.Paths
import RuleTree.Proofs.Document.Forms
import RuleTree.Proofs.Document.Parsing
import RuleTree.Proofs.Document.Language
import RuleTree.Proofs.Document.Walk
import RuleTree.Proofs.Validator.Agreement
import RuleTree.Proofs.Build.Silence
import RuleTree.Proofs.Build.Exits
import RuleTree.Proofs.Command.ExitCode
import RuleTree.Proofs.Document.NormalForm
import RuleTree.Proofs.Document.Lint
import RuleTree.Proofs.Validator.Alternatives
import RuleTree.Proofs.Value.Equivalence
import RuleTree.Proofs.Validator.Representation
import RuleTree.Proofs.Rule.Context
import RuleTree.Proofs.Validator.Monotone
import RuleTree.Proofs.Number.Decimal
import RuleTree.Proofs.Number.Rounding
import RuleTree.Proofs.Number.Shortest
import RuleTree.Proofs.Json.Quoted
import RuleTree.Proofs.Json.Numerals
import RuleTree.Proofs.Json.Nesting
import RuleTree.Proofs.Json.RoundTrip
import RuleTree.Proofs.Schema.Printing
import RuleTree.Proofs.Validator.Verdict
import RuleTree.Proofs.Validator.Comparisons
import RuleTree.Proofs.Regex.Context
import RuleTree.Proofs.Regex.Neutral
import RuleTree.Proofs.Regex.Choice
import RuleTree.Proofs.Regex.Exchange
import RuleTree.Proofs.Regex.Follows
import RuleTree.Proofs.Regex.Leaves
import RuleTree.Proofs.Regex.Openings
import RuleTree.Proofs.Regex.Rows
import RuleTree.Proofs.Regex.Matching
import RuleTree.Proofs.Regex.EndAnchors
import RuleTree.Proofs.Regex.Conversion
import RuleTree.Proofs.Registry.Runs
import RuleTree.Proofs.Regex.Literals
import RuleTree.Proofs.Build.Shape
import RuleTree.Proofs.Yaml.Scanning
import RuleTree.Proofs.Yaml.Flows
import RuleTree.Proofs.Yaml.Tokens
import RuleTree.Proofs.Yaml.Assembly
import RuleTree.Proofs.Yaml.Scalars
import RuleTree.Proofs.Yaml.Reread
import RuleTree.Proofs.File.Suffix
import RuleTree.Proofs.Text.Digits
import RuleTree.Proofs.Calendar.Notation
import RuleTree.Proofs.Calendar.Days
import RuleTree.Proofs.Calendar.Stamps
import RuleTree.Proofs.Calendar.Loose
import RuleTree.Proofs.Regex.StrictEnds
