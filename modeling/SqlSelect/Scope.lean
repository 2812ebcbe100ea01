import SqlSelect.Dialect
import SqlSelect.Document
import SqlSelect.TableName

/-!
# Names inside a statement

* `Renderer`: the dialect to write in and the prefix of table placeholders;
* `Scope`: a renderer with the table aliases of one statement;
* `Scope.key`: a field as it is written: placeholders resolved, the name of a table with an alias
  replaced by the alias, and quoted;
* `Scope.table`: a table as it is introduced, with its alias behind it.
-/

namespace SqlSelect

/-- How statements are written. -/
structure Renderer where
  dialect : Dialect := .generic
  tablePrefix : String := ""

/-- How names are written inside one statement. -/
structure Scope where
  renderer : Renderer
  aliases : NameMap

/-- The scope of a document. -/
def Document.scope (d : Document) (r : Renderer) : Scope := ⟨r, d.aliases⟩

namespace Scope

/-- The text with its table placeholders resolved. -/
def expand (s : Scope) (text : String) : String :=
  TableName.expand s.renderer.tablePrefix text

/-- The text quoted in the dialect. -/
def quote (s : Scope) (text : String) : String := s.renderer.dialect.quote text

/-- The key with its table replaced by the alias of that table, if it names one with an alias. -/
def qualify (s : Scope) (key : String) : String :=
  match Text.splitFirst? '.' key with
  | some (table, column) =>
    if Name.isExpression key then key
    else ((s.aliases.get? table).map fun short => short ++ "." ++ column).getD key
  | none => key

/-- A field as it is written. -/
def key (s : Scope) (field : String) : String := s.quote (s.qualify (s.expand field))

/-- Is the text a subquery, or several words, and not the name of a table? -/
def isOpaqueTable (table : String) : Bool := Text.has table ')' || Text.hasWhiteSpace table

/-- A table as it is introduced. -/
def table (s : Scope) (name : String) : String :=
  let resolved := s.expand name
  if isOpaqueTable resolved then resolved
  else
    s.quote resolved ++ ((s.aliases.get? resolved).map fun short => " " ++ s.quote short).getD ""

end Scope

end SqlSelect
