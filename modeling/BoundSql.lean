import BoundSql.Text.Blank
import BoundSql.Text.Capital
import BoundSql.Text.Utf8
import BoundSql.Json.Reader
import BoundSql.Json.Printer
import BoundSql.Value.Json
import BoundSql.Value.Cell
import BoundSql.Value.Calendar
import BoundSql.Build
import BoundSql.Query.Fragment
import BoundSql.Schema.Table
import BoundSql.Query.Expr
import BoundSql.Query.Arguments
import BoundSql.Query.Select
import BoundSql.Query.Update
import BoundSql.Query.Create
import BoundSql.Engine.Scripted
import BoundSql.Database
import BoundSql.Operation
import BoundSql.Config.Files
import BoundSql.Schema.Template
import BoundSql.Proofs.Exact
import BoundSql.Proofs.Quotes
import BoundSql.Proofs.Readers
import BoundSql.Proofs.Draft
import BoundSql.Proofs.Layout
import BoundSql.Proofs.Clauses
import BoundSql.Proofs.Alignment
import BoundSql.Proofs.Substitution
import BoundSql.Proofs.FastInsert
import BoundSql.Proofs.Bulk
import BoundSql.Proofs.Dialogue
import BoundSql.Proofs.SingleInsert
import BoundSql.Proofs.Operation
import BoundSql.Proofs.Assertion
import BoundSql.Proofs.Guard
import BoundSql.Proofs.Grammar.Lexer
import BoundSql.Proofs.Grammar.Derivation
import BoundSql.Proofs.Grammar.Rendering
import BoundSql.Proofs.Reconciliation
import BoundSql.Proofs.Shapes
import BoundSql.Proofs.Mapping
import BoundSql.Proofs.Faults
import BoundSql.Proofs.Assembly
import BoundSql.Proofs.OneRow
import BoundSql.Proofs.Transposition
import BoundSql.Proofs.Json.Scalars
import BoundSql.Proofs.Json.Texts
import BoundSql.Proofs.Json.Printing
import BoundSql.Proofs.Template.Encoding
import BoundSql.Proofs.Template.Kept
import BoundSql.Proofs.Template.Constraints
import BoundSql.Proofs.Bracketing
import BoundSql.Proofs.Column.Texts
import BoundSql.Proofs.Column.Order
import BoundSql.Proofs.Column.Words
import BoundSql.Proofs.Column.Nesting
import BoundSql.Proofs.Creation.Statement
import BoundSql.Proofs.Creation.Template
import BoundSql.Proofs.Alternation
import BoundSql.Proofs.DocumentFilter
import BoundSql.Proofs.Utf8
import BoundSql.Proofs.Cells
import BoundSql.Proofs.Calendar.DayNumber
import BoundSql.Proofs.Calendar.Digits
import BoundSql.Proofs.Calendar.Texts
import BoundSql.Proofs.Keywords
import BoundSql.Proofs.Json.Reals
import BoundSql.Proofs.Json.Rows
import BoundSql.Proofs.Toml.Spelling
import BoundSql.Proofs.Toml.Strings
import BoundSql.Proofs.Toml.Entries
import BoundSql.Proofs.Toml.Printing
import BoundSql.Proofs.Settings
