import SqlSelect.Draft

/-!
# Primary keys

* `KeyData`: the values that identify rows: a value, a list, or values by column;
* `Document.requireKey`: a document with the condition that the primary key is given by the data;
* `Draft.findByKey`: a single row by its key.

The condition stands among the `AND` entries, in place of the first entry of that field, and names
the column by the alias of the main table if it has one.
-/

namespace SqlSelect

/-- The values that identify rows. -/
inductive KeyData
  | scalar (v : Value)
  | list (vs : List Value)
  | map (entries : List (String × Value))

namespace KeyData

/-- The first value for a column. -/
def lookup? (data : KeyData) (column : String) : Option Value :=
  match data with
  | map entries => entries.lookup column
  | _ => none

/-- The condition on the column of a simple key. A text with commas lists several keys, and a map
without the column lists its values. -/
def condition (column : String) : KeyData → Condition
  | scalar (.text s) =>
    if Text.has s ',' then .inList (Value.text s).listed false else .eq (.text s)
  | scalar v => .eq v
  | list vs => .inList vs false
  | map entries =>
    match entries.lookup column with
    | some v => .eq v
    | none => .inList (entries.map Prod.snd) false

end KeyData

namespace PrimaryKey

/-- The conditions on the columns of a key, in the order of the columns. A composite key needs a
value for each of them. -/
def conditions (data : KeyData) : PrimaryKey → Except Error (List (String × Condition))
  | single column => .ok [(column, data.condition column)]
  | composite columns =>
    columns.mapM fun column =>
      match data.lookup? column with
      | some v => .ok (column, .eq v)
      | none => .error (.missingKeyColumn column)

end PrimaryKey

namespace Document

/-- The alias of the main table. -/
def mainAlias? (pre : String) (d : Document) : Option String :=
  d.mainTable?.bind fun table => d.aliases.get? (TableName.expand pre table)

/-- A column named by the alias of the main table, if it has one. -/
def qualifyKey (pre : String) (d : Document) (column : String) : String :=
  ((d.mainAlias? pre).map fun short => short ++ "." ++ column).getD column

/-- Conditions on columns of the main table, each in place of the first on that column. -/
def putConditions (pre : String) (cs : List (String × Condition)) (d : Document) : Document :=
  { d with
    filter :=
      cs.foldl (fun bs (column, c) => Filter.putField .and (d.qualifyKey pre column) [c] bs)
        d.filter }

/-- The document with the condition that the primary key is given by the data. -/
def requireKey (settings : Settings) (data : KeyData) (d : Document) : Except Error Document :=
  (settings.key.conditions data).map fun cs => d.putConditions settings.tablePrefix cs

end Document

/-- Closes the draft and renders what it was for the row with a key. -/
def Draft.findByKey (d : Draft) (data : KeyData) : Except Error Statement × Draft :=
  let found := do
    let doc ← d.normalize.1
    let doc ← doc.requireKey d.settings data
    return d.build (oneRow doc)
  (found, d.reset)

end SqlSelect
