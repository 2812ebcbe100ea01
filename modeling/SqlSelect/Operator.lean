import SqlSelect.Text.LetterCase
import SqlSelect.Text.WhiteSpace

/-!
# Operators

* `Comparison`: the operators that compare a field with one value;
* `Operator`: all that a condition can say of a field;
* `Operator.parse?`: reads an operator as people write it: any case, any white space between the
  words, and short names such as `egt` for `>=`.
-/

namespace SqlSelect

/-- An operator that compares a field with one value. -/
inductive Comparison
  | eq
  | neq
  | gt
  | ge
  | lt
  | le
  | like
  | notLike
  deriving DecidableEq, Repr

/-- The comparison as SQL. -/
def Comparison.sql : Comparison → String
  | eq => "="
  | neq => "<>"
  | gt => ">"
  | ge => ">="
  | lt => "<"
  | le => "<="
  | like => "LIKE"
  | notLike => "NOT LIKE"

/-- What a condition says of a field. -/
inductive Operator
  | compare (op : Comparison)
  | inList
  | notInList
  | between
  | notBetween
  | isNull
  | isNotNull
  | exp
  deriving DecidableEq, Repr

namespace Operator

/-- The text in lower case with one space between its words. -/
def canonical (s : String) : String := Text.join " " (Text.words (Text.lowerAscii s))

/-- The spellings of the operators. -/
def ofCanonical? : String → Option Operator
  | "=" | "eq" => some (.compare .eq)
  | "<>" | "!=" | "neq" => some (.compare .neq)
  | ">" | "gt" => some (.compare .gt)
  | ">=" | "egt" => some (.compare .ge)
  | "<" | "lt" => some (.compare .lt)
  | "<=" | "elt" => some (.compare .le)
  | "like" => some (.compare .like)
  | "not like" | "notlike" => some (.compare .notLike)
  | "in" => some .inList
  | "not in" | "notin" => some .notInList
  | "between" => some .between
  | "not between" | "notbetween" => some .notBetween
  | "null" | "is null" => some .isNull
  | "notnull" | "not null" | "is not null" => some .isNotNull
  | "exp" => some .exp
  | _ => none

/-- Reads an operator. -/
def parse? (s : String) : Option Operator := ofCanonical? (canonical s)

/-- Does the operator test for null, so that it takes no operand? -/
def isNullTest : Operator → Bool
  | isNull => true
  | isNotNull => true
  | _ => false

end Operator

end SqlSelect
