import SqlSelect.Fragment

/-!
# The layout of a SELECT statement

* `Slot`: the clauses of a statement;
* `Layout.select`: their order, with the words between them;
* `Layout.fill`: the statement made of given clauses.

Each clause but the field and table lists brings its own leading space, so that an absent one
leaves nothing behind.
-/

namespace SqlSelect

/-- A clause of a SELECT statement. -/
inductive Slot
  | distinct
  | fields
  | tables
  | forced
  | joins
  | filter
  | group
  | having
  | unions
  | order
  | limit
  | lock
  | comment
  deriving DecidableEq, Repr

/-- A fixed word of a layout, or the place of a clause. -/
inductive LayoutPart
  | word (s : String)
  | slot (s : Slot)
  deriving DecidableEq, Repr

namespace Layout

/-- The order of the clauses. -/
def select : List LayoutPart :=
  [.word "SELECT", .slot .distinct, .word " ", .slot .fields, .word " FROM ", .slot .tables,
   .slot .forced, .slot .joins, .slot .filter, .slot .group, .slot .having, .slot .unions,
   .slot .order, .slot .limit, .slot .lock, .slot .comment]

/-- One part of a statement made of given clauses. -/
def fillPart (clause : Slot → Fragment) : LayoutPart → Fragment
  | .word s => Fragment.ofText s
  | .slot s => clause s

/-- The statement made of given clauses. -/
def fill (clause : Slot → Fragment) (parts : List LayoutPart) : Fragment :=
  parts.flatMap (fillPart clause)

end Layout

end SqlSelect
