import SqlSelect.Document
import SqlSelect.Name
import SqlSelect.TableName

/-!
# Declarations

A `Declaration` says something about one of the flat clauses of a statement.

* `TableSpec`, `Declaration`: what can be said;
* `TableSpec.entries`, `FieldItem.ofText`, `OrderItem.ofText`: how the textual forms are read;
* `Document.declare`: the document after a declaration.
-/

namespace SqlSelect

/-- The tables of a statement: a list in words, or tables with their aliases. -/
inductive TableSpec
  | text (s : String)
  | list (tables : List (String × Option String))

/-- A table in words, with an alias if there is one. -/
def TableSpec.entry (item : String) : String × Option String :=
  match Name.aliased? item with
  | some (name, short) => (name, some short)
  | none => (item, none)

/-- The tables and their aliases. A text with a closing parenthesis is one table as it stands. -/
def TableSpec.entries : TableSpec → List (String × Option String)
  | text s =>
    let s := Text.trim s
    if Text.has s ')' then [(s, none)] else (Text.items ',' s).map entry
  | list tables => tables

/-- A selected field in words: a column, or `column AS alias`. -/
def FieldItem.ofText (item : String) : FieldItem :=
  match Text.words item with
  | [name, keyword, short] =>
    if Text.equalsIgnoringCase keyword "as" then .aliased name short else .column item
  | _ => .column item

/-- An item of the order in words: a field, perhaps with a direction; else it is raw SQL. -/
def OrderItem.ofText (item : String) : OrderItem :=
  match Text.words item with
  | [name] => .field name none
  | [name, word] =>
    match SortDirection.parse? word with
    | some direction => .field name (some direction)
    | none => .raw item
  | _ => .raw item

/-- What can be said about the flat clauses. -/
inductive Declaration
  | tables (spec : TableSpec)
  /-- An alias for the main table. -/
  | «alias» (short : String)
  | aliases (pairs : List (String × String))
  /-- Further fields in words. -/
  | fields (text : String)
  | fieldAlias (column short : String)
  | fieldRaw (sql : String)
  | distinct (distinct : Bool)
  | join (table : String) (on : List JoinOn) (kind : JoinKind)
  | group (text : String)
  | having (sql : String)
  /-- Further items of the order in words. -/
  | order (text : String)
  | orderBy (field : String) (direction : SortDirection)
  | orderRaw (sql : String)
  | limit (limit : Limit)
  | page (page : PageRequest)
  | unionRaw (sql : String) (all : Bool)
  | lock (clause : Option String)
  | comment (text : String)
  /-- The indexes to use, in words. -/
  | forced (text : String)
  | fetchSql (fetch : Bool)
  | softDelete (field : String) (condition : Condition)
  | view (pairs : List (String × String))

namespace Declaration

/-- A join on a condition in words. -/
def joinText (table on : String) (kind : JoinKind) : Declaration :=
  .join table [JoinOn.ofText on] kind

/-- A join on raw SQL. -/
def joinRaw (table sql : String) (kind : JoinKind) : Declaration := .join table [.raw sql] kind

/-- The rows are locked for an update, or not locked. -/
def lockRows (lock : Bool) : Declaration := .lock (if lock then some "FOR UPDATE" else none)

/-- The rows are locked by a clause in words. -/
def lockText (clause : String) : Declaration := .lock (some (Text.trim clause))

end Declaration

namespace Document

/-- Gives a table an alias. Aliases are kept under the resolved names of tables. -/
def addAlias (pre : String) (table short : String) (d : Document) : Document :=
  { d with aliases := d.aliases.insert (TableName.expand pre table) short }

/-- Gives tables their aliases. -/
def addAliases (pre : String) (pairs : List (String × String)) (d : Document) : Document :=
  pairs.foldl (fun d (table, short) => d.addAlias pre table short) d

/-- Sets the tables, each once, and gives them their aliases. -/
def setTables (pre : String) (entries : List (String × Option String)) (d : Document) :
    Document :=
  let named := entries.filterMap fun (table, short) => short.map (table, ·)
  { d.addAliases pre named with tables := (entries.map Prod.fst).eraseDups }

/-- Selects one more field. -/
def addField (item : FieldItem) (d : Document) : Document :=
  { d with fields := d.fields.add item }

/-- Is the text of fields an expression, which is kept whole? -/
def isFieldExpression (text : String) : Bool :=
  ['<', '\'', '"', '('].any fun c => Text.has text c

/-- Selects the fields that a text lists; a star stands for all fields. -/
def addFields (text : String) (d : Document) : Document :=
  let text := Text.trim text
  if text = "*" then { d with fields := .all }
  else if isFieldExpression text then d.addField (.raw text)
  else (Text.items ',' text).foldl (fun d item => d.addField (FieldItem.ofText item)) d

/-- Adds a join. An alias behind the name of the table is registered. -/
def addJoin (pre : String) (table : String) (on : List JoinOn) (kind : JoinKind) (d : Document) :
    Document :=
  let table := Text.trim table
  let (name, short) := if Text.has table ')' then (table, none) else TableSpec.entry table
  let d := (short.map fun a => d.addAlias pre name a).getD d
  { d with joins := d.joins ++ [⟨name, kind, on⟩] }

/-- The document after a declaration. Placeholders in the names of tables with aliases are resolved
under `pre`; `ownTable` is the main table if none has been declared. -/
def declare (pre ownTable : String) (d : Document) : Declaration → Document
  | .tables spec => d.setTables pre spec.entries
  | .«alias» short => d.addAlias pre (d.mainTable?.getD ownTable) short
  | .aliases pairs => d.addAliases pre pairs
  | .fields text => d.addFields text
  | .fieldAlias column short => d.addField (.aliased column short)
  | .fieldRaw sql => d.addField (.raw sql)
  | .distinct distinct => { d with distinct }
  | .join table on kind => d.addJoin pre table on kind
  | .group text => { d with group := some text }
  | .having sql => { d with having := some sql }
  | .order text => { d with order := d.order ++ (Text.items ',' text).map OrderItem.ofText }
  | .orderBy field direction => { d with order := d.order ++ [.field field (some direction)] }
  | .orderRaw sql => { d with order := d.order ++ [.raw sql] }
  | .limit limit => { d with limit := some limit }
  | .page page => { d with page := some page }
  | .unionRaw sql all => { d with unions := d.unions ++ [.raw sql all] }
  | .lock clause => { d with lock := clause }
  | .comment text => { d with comment := some text }
  | .forced text => { d with forced := Text.items ',' text }
  | .fetchSql fetch => { d with fetchSql := fetch }
  | .softDelete field condition => { d with softDelete := some ⟨field, condition⟩ }
  | .view pairs => { d with view := some (.ofList pairs) }

end Document

end SqlSelect
