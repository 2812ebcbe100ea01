import SqlSelect.Text.LetterCase
import SqlSelect.Text.WhiteSpace

/-!
# The flat clauses of a SELECT statement

The clauses that hold no conditions and no subqueries:

* `FieldList`: the selected fields;
* `Join`, `JoinOn`: joined tables, with `JoinOn.ofText` for the text of a condition;
* `OrderItem`, `SortDirection`: the order of the rows;
* `Limit`, `PageRequest`: how many rows, and from where.
-/

namespace SqlSelect

/-! ### Selected fields -/

/-- One selected field. -/
inductive FieldItem
  | column (name : String)
  | aliased (column short : String)
  | raw (sql : String)
  deriving DecidableEq, Repr

/-- The selected fields. -/
inductive FieldList
  | all
  | items (items : List FieldItem)
  deriving DecidableEq, Repr, Inhabited

/-- Selects one more field. The first one replaces "all fields", and none is selected twice. -/
def FieldList.add : FieldList → FieldItem → FieldList
  | all, item => .items [item]
  | items is, item => if item ∈ is then .items is else .items (is ++ [item])

/-! ### Joins -/

/-- Which rows without a partner a join keeps. -/
inductive JoinKind
  | inner
  | left
  | right
  | full
  deriving DecidableEq, Repr

/-- The keyword of a kind of join. -/
def JoinKind.keyword : JoinKind → String
  | inner => "INNER"
  | left => "LEFT"
  | right => "RIGHT"
  | full => "FULL"

/-- A condition of a join: an equality of two keys, a text, or raw SQL. -/
inductive JoinOn
  | eq (left right : String)
  | text (s : String)
  | raw (sql : String)
  deriving DecidableEq, Repr

/-- Do the two sides of the first `=` belong to an equality, and not to another comparison? -/
def JoinOn.isEquality (left right : String) : Bool :=
  !(['<', '>', '!'].any fun c => left.toList.getLast? == some c) &&
    right.toList.head? != some '=' && !Text.isBlank left && !Text.isBlank right

/-- The condition that a text states: an equality if there is a first `=` that stands between two
non-blank sides and is no part of a longer operator, else the text itself. -/
def JoinOn.ofText (s : String) : JoinOn :=
  match Text.splitFirst? '=' s with
  | some (left, right) =>
    if isEquality left right then .eq (Text.trim left) (Text.trim right) else .text (Text.trim s)
  | none => .text (Text.trim s)

/-- A joined table. -/
structure Join where
  table : String
  kind : JoinKind
  on : List JoinOn
  deriving DecidableEq, Repr

/-! ### Order -/

/-- A direction of sorting. -/
inductive SortDirection
  | ascending
  | descending
  deriving DecidableEq, Repr

/-- The keyword of a direction. -/
def SortDirection.keyword : SortDirection → String
  | ascending => "ASC"
  | descending => "DESC"

/-- Reads `asc` or `desc`, in any case. -/
def SortDirection.parse? (s : String) : Option SortDirection :=
  if Text.equalsIgnoringCase s "asc" then some .ascending
  else if Text.equalsIgnoringCase s "desc" then some .descending
  else none

/-- One item of the order. -/
inductive OrderItem
  | field (name : String) (direction : Option SortDirection)
  | raw (sql : String)
  deriving DecidableEq, Repr

/-! ### Limits and pages -/

/-- At most `count` rows, the first `offset` of all left out. -/
structure Limit where
  offset : Option UInt64 := none
  count : UInt64
  deriving DecidableEq, Repr

/-- A page of rows as it is asked for. -/
structure PageRequest where
  number : Int64
  size : Int64
  deriving DecidableEq

end SqlSelect
