import SqlSelect.Clause
import SqlSelect.Connective
import SqlSelect.NameMap
import SqlSelect.Operator
import SqlSelect.Param

/-!
# Documents

A `Document` is a SELECT statement as plain data. Conditions, entries and unions may hold further
documents, so the types are defined together.

* `Condition`: what is demanded of one field;
* `Entry`: one member of a WHERE clause: conditions on a field, raw SQL, a group, or an existence
  test;
* `Branch`: the entries that one connective joins. A WHERE clause is a list of branches;
* `UnionItem`, `SoftDelete`, `Document`.

Raw SQL stands in the document as text.
-/

namespace SqlSelect

mutual

/-- What is demanded of one field. -/
inductive Condition
  | compare (op : Comparison) (value : Value)
  | compareRaw (op : Comparison) (sql : String)
  | isNull
  | isNotNull
  | inList (values : List Value) (negated : Bool)
  | between (low high : Value) (negated : Bool)
  | exp (sql : String) (binds : List Param)
  | inQuery (query : Document) (negated : Bool)

/-- One member of a WHERE clause. -/
inductive Entry
  | field (name : String) (conditions : List Condition)
  | raw (sql : String) (binds : List Param)
  | group (branches : List Branch)
  | exist (query : Document) (negated : Bool)

/-- The entries that one connective joins. -/
structure Branch where
  connective : Connective
  entries : List Entry

/-- A statement that is united with the main one. -/
inductive UnionItem
  | raw (sql : String) (all : Bool)
  | query (query : Document) (all : Bool)

/-- A condition that hides rows marked as deleted. -/
structure SoftDelete where
  field : String
  condition : Condition

/-- A SELECT statement. -/
structure Document where
  tables : List String := []
  aliases : NameMap := {}
  fields : FieldList := .all
  distinct : Bool := false
  joins : List Join := []
  filter : List Branch := []
  group : Option String := none
  having : Option String := none
  order : List OrderItem := []
  limit : Option Limit := none
  page : Option PageRequest := none
  unions : List UnionItem := []
  lock : Option String := none
  comment : Option String := none
  forced : List String := []
  fetchSql : Bool := false
  softDelete : Option SoftDelete := none
  view : Option NameMap := none

end

instance : Inhabited Document := ⟨{}⟩

/-- The first table of a document. -/
def Document.mainTable? (d : Document) : Option String := d.tables.head?

end SqlSelect
