import SqlSelect.Call
import SqlSelect.Proofs.Aliases
import SqlSelect.Proofs.Assembly
import SqlSelect.Proofs.Backticks.Identifiers
import SqlSelect.Proofs.Backticks.Statement
import SqlSelect.Proofs.Binding
import SqlSelect.Proofs.Closing
import SqlSelect.Proofs.Comments.Ending
import SqlSelect.Proofs.Comments.Wording
import SqlSelect.Proofs.Demands.BlankFields
import SqlSelect.Proofs.Demands.ShortForms
import SqlSelect.Proofs.Equalities
import SqlSelect.Proofs.FanOuts
import SqlSelect.Proofs.FunctionCalls
import SqlSelect.Proofs.Keys.Declaring
import SqlSelect.Proofs.Keys.Requirement
import SqlSelect.Proofs.Ledger
import SqlSelect.Proofs.Lists
import SqlSelect.Proofs.Literals
import SqlSelect.Proofs.NamedParams
import SqlSelect.Proofs.Noninterference
import SqlSelect.Proofs.Normal
import SqlSelect.Proofs.Pages.Sizes
import SqlSelect.Proofs.Pages.Windows
import SqlSelect.Proofs.Qualifiers
import SqlSelect.Proofs.Reading.Lowering
import SqlSelect.Proofs.Reading.Meaning
import SqlSelect.Proofs.Resolving
import SqlSelect.Proofs.Scanning.Seams
import SqlSelect.Proofs.Selection.Alias
import SqlSelect.Proofs.Selection.Carried
import SqlSelect.Proofs.Selection.Clause
import SqlSelect.Proofs.Selection.Guard
import SqlSelect.Proofs.Selection.Key
import SqlSelect.Proofs.Selection.Tree
import SqlSelect.Proofs.Separators
import SqlSelect.Proofs.Subqueries.Emitting
import SqlSelect.Proofs.Subqueries.Places
import SqlSelect.Proofs.Validation.Flaws
import SqlSelect.Proofs.Validation.Programs
import SqlSelect.Proofs.Views.Programs
import SqlSelect.Proofs.Views.Renaming
import SqlSelect.Proofs.Views.Scoping
