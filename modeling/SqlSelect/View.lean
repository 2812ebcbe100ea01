import SqlSelect.Filter
import SqlSelect.Name

/-!
# Views

A view tells for some field names which columns are behind them. `View.apply` puts the columns in
their places in the conditions and in the order of a document; subqueries keep their names.
-/

namespace SqlSelect

namespace View

/-- The column behind a name, or the name. -/
def column (v : NameMap) (name : String) : String := (v.get? name).getD name

/-- A part of a text that stands for several fields; it is looked up without the white space around
it, and stays as it is written if it is not in the view. -/
def part (v : NameMap) (text : String) : String := (v.get? (Text.trim text)).getD text

/-- A field text with the columns behind its names. -/
def field (v : NameMap) (text : String) : String :=
  match Name.fanSign? text with
  | some (_, sign) =>
    Text.join (String.singleton sign) ((Text.splitOn sign text).map (part v))
  | none => column v text

/-- An item of the order with the column behind its name. -/
def orderItem (v : NameMap) : OrderItem → OrderItem
  | .field name direction => .field (column v name) direction
  | .raw sql => .raw sql

/-- A document with the columns behind the names in its conditions and its order. -/
def apply (v : NameMap) (d : Document) : Document :=
  { d with filter := Filter.renameFields (field v) d.filter, order := d.order.map (orderItem v) }

end View

end SqlSelect
