import FieldRules.Analysis
import FieldRules.CommandLine
import FieldRules.CommandLine.Arguments
import FieldRules.Compilation
import FieldRules.Condition
import FieldRules.Condition.Message
import FieldRules.Condition.Template
import FieldRules.Declaration
import FieldRules.Error
import FieldRules.Except
import FieldRules.Expr
import FieldRules.FieldType
import FieldRules.FieldType.Spelling
import FieldRules.FileSystem
import FieldRules.FileTree
import FieldRules.Glob
import FieldRules.Glob.Pattern
import FieldRules.Json.Cursor
import FieldRules.Json.Fault
import FieldRules.Json.NumberLiteral
import FieldRules.Json.Reader
import FieldRules.Json.Record
import FieldRules.Json.Skip
import FieldRules.Json.StringLiteral
import FieldRules.Literal
import FieldRules.Main
import FieldRules.Manifest
import FieldRules.Numeral.Double
import FieldRules.Numeral.Integer
import FieldRules.Numeral.Shortest
import FieldRules.Operation
import FieldRules.Schedule
import FieldRules.Scope
import FieldRules.Tag
import FieldRules.Tag.Entry
import FieldRules.Tag.Error
import FieldRules.Text.Blank
import FieldRules.Text.Case
import FieldRules.Text.CaseTable
import FieldRules.Text.GlyphTable
import FieldRules.Text.Path
import FieldRules.Text.Quoted
import FieldRules.Text.Replace
import FieldRules.TypeIndex
import FieldRules.Validation
import FieldRules.Validator
import FieldRules.Validator.File
import FieldRules.Validator.Name
import FieldRules.Validator.Source
import FieldRules.Widening
import FieldRules.Proofs.Traversal
import FieldRules.Proofs.Analysis.Rules
import FieldRules.Proofs.Analysis.WellFormed
import FieldRules.Proofs.Analysis.Attached
import FieldRules.Proofs.Compilation.Internal
import FieldRules.Proofs.Expr.Decides
import FieldRules.Proofs.Literal.Reading
import FieldRules.Proofs.Condition.Meaning
import FieldRules.Proofs.Condition.Optional
import FieldRules.Proofs.Condition.Constants
import FieldRules.Proofs.Condition.Message
import FieldRules.Proofs.FileTree.Node
import FieldRules.Proofs.FileTree.Write
import FieldRules.Proofs.CommandLine.PackageFiles
import FieldRules.Proofs.Compilation.Stages
import FieldRules.Proofs.Scope.References
import FieldRules.Proofs.Compilation.Order
import FieldRules.Proofs.Compilation.Outcome
import FieldRules.Proofs.Compilation.Delegation
import FieldRules.Proofs.Compilation.Names
import FieldRules.Proofs.Tag.Pieces
import FieldRules.Proofs.Tag.QuotedList
import FieldRules.Proofs.Tag.Entry
import FieldRules.Proofs.Tag.Splitting
import FieldRules.Proofs.Tag.Canonical
import FieldRules.Proofs.Analysis.Faults
import FieldRules.Proofs.Analysis.Paths
import FieldRules.Proofs.Analysis.EntryFault
import FieldRules.Proofs.Analysis.FirstFault
import FieldRules.Proofs.Analysis.Annotation
import FieldRules.Proofs.Compilation.Located
import FieldRules.Proofs.Expr.Typing
import FieldRules.Proofs.Condition.Typing
import FieldRules.Proofs.Validator.Typing
import FieldRules.Proofs.FieldType.Spelling
import FieldRules.Proofs.FieldType.Integer
import FieldRules.Proofs.Literal.Range
import FieldRules.Proofs.Condition.Widening
import FieldRules.Proofs.FieldType.Nesting
import FieldRules.Proofs.Literal.Integer
import FieldRules.Proofs.Scope.Reachability
import FieldRules.Proofs.Scope.Repeated
import FieldRules.Proofs.Scope.RelativePaths
import FieldRules.Proofs.Analysis.Untagged
import FieldRules.Proofs.Validator.Blocks
import FieldRules.Proofs.Condition.Duality
import FieldRules.Proofs.Compilation.Separate
import FieldRules.Proofs.Compilation.Grouping
import FieldRules.Proofs.FileTree.OnlyReads
import FieldRules.Proofs.CommandLine.Failure
import FieldRules.Proofs.Source.Lexer
import FieldRules.Proofs.Source.Quoted
import FieldRules.Proofs.Source.Tokens
import FieldRules.Proofs.Source.Literals
import FieldRules.Proofs.Source.Kinds
import FieldRules.Proofs.Source.Readback
import FieldRules.Proofs.Source.Forms
import FieldRules.Proofs.Source.Unambiguous
import FieldRules.Proofs.Json.Grammar
import FieldRules.Proofs.Json.Takes
import FieldRules.Proofs.Json.Passing
import FieldRules.Proofs.Json.Values
import FieldRules.Proofs.Json.Containers
import FieldRules.Proofs.Json.Answers
import FieldRules.Proofs.Json.Scalars
import FieldRules.Proofs.Json.PassesOver
import FieldRules.Proofs.Json.Determined
import FieldRules.Proofs.Json.Records
import FieldRules.Proofs.Json.Written
import FieldRules.Proofs.Manifest
import FieldRules.Proofs.Manifest.Written
import FieldRules.Proofs.Manifest.Shapes
import FieldRules.Proofs.Tag.Apostrophes
import FieldRules.Proofs.Validator.Underscores
import FieldRules.Proofs.FieldType.Arguments
