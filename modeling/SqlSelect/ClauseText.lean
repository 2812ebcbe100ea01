import SqlSelect.Layout
import SqlSelect.Scope

/-!
# The text of the flat clauses

`Document.clauseText` is the text of each clause of a document that holds neither conditions nor
subqueries, with its leading space; an absent clause is empty.
-/

namespace SqlSelect

namespace Scope

/-- A selected field as it is written. -/
def fieldItem (s : Scope) : FieldItem → String
  | .column name => s.key name
  | .aliased column short => s.key column ++ " AS " ++ s.quote short
  | .raw sql => sql

/-- The list of selected fields. -/
def fields (s : Scope) : FieldList → String
  | .all => "*"
  | .items items => Text.join "," (items.map s.fieldItem)

/-- A condition of a join. -/
def joinOn (s : Scope) : JoinOn → String
  | .eq left right => s.key left ++ "=" ++ s.key right
  | .text text => text
  | .raw sql => sql

/-- A joined table. -/
def join (s : Scope) (j : Join) : String :=
  " " ++ j.kind.keyword ++ " JOIN " ++ s.table j.table ++
    (if j.on = [] then "" else " ON " ++ Text.join " AND " (j.on.map s.joinOn))

/-- The keys to group by. A text with a parenthesis is one expression. -/
def groupKeys (s : Scope) (group : String) : String :=
  if Text.has group '(' then Text.trim group
  else Text.join "," ((Text.splitOn ',' group).map fun k => s.key (Text.trim k))

/-- An item of the order. -/
def orderItem (s : Scope) : OrderItem → String
  | .field name (some direction) => s.key name ++ " " ++ direction.keyword
  | .field name none => s.key name
  | .raw sql => sql

end Scope

/-- The body of a comment. Closing marks are taken out of it. -/
def commentBody (text : String) : String :=
  Text.trim (String.ofList (Chars.removePair '*' '/' text.toList))

/-- The text of a clause, with its leading space. -/
def Document.clauseText (d : Document) (r : Renderer) : Slot → String
  | .distinct => if d.distinct then " DISTINCT" else ""
  | .fields => (d.scope r).fields d.fields
  | .tables => Text.join "," (d.tables.map (d.scope r).table)
  | .forced => if d.forced = [] then "" else " FORCE INDEX (" ++ Text.join "," d.forced ++ ")"
  | .joins => Text.join "" (d.joins.map (d.scope r).join)
  | .group =>
    match d.group with
    | some group => if Text.isBlank group then "" else " GROUP BY " ++ (d.scope r).groupKeys group
    | none => ""
  | .having => (d.having.map fun sql => " HAVING " ++ sql).getD ""
  | .order =>
    if d.order = [] then ""
    else " ORDER BY " ++ Text.join "," (d.order.map (d.scope r).orderItem)
  | .limit => (d.limit.map fun l => " " ++ r.dialect.limit l).getD ""
  | .lock =>
    match d.lock with
    | some lock => if lock = "" then "" else " " ++ lock
    | none => ""
  | .comment =>
    match d.comment with
    | some text => if text = "" then "" else " /* " ++ commentBody text ++ " */"
    | none => ""
  | .filter => ""
  | .unions => ""

end SqlSelect
