import SqlSelect.Connective
import SqlSelect.Text.LetterCase
import SqlSelect.Text.WhiteSpace

/-!
# Names of fields and tables

* `Name.isExpression`: a text that cannot be a name and is taken as an SQL expression;
* `Name.fanOut?`: a field text that stands for several fields, `a|b` for any and `a&b` for all;
* `Name.aliased?`: a name with an alias behind it, `t u` or `t AS u`.
-/

namespace SqlSelect

namespace Name

/-- A character that no name has. -/
def isExpressionChar (c : Char) : Bool :=
  [',', '=', '<', '>', '\'', '"', '('].contains c || Chars.isWhiteSpace c

/-- Does the text have a character that no name has? -/
def isExpression (s : String) : Bool := s.toList.any isExpressionChar

/-- The connective of a field text that stands for several fields, and its sign. The sign for `OR`
is looked for first. -/
def fanSign? (field : String) : Option (Connective × Char) :=
  if Text.has field '|' then some (.or, '|')
  else if Text.has field '&' then some (.and, '&')
  else none

/-- The fields that a field text stands for, if it has a sign, and the connective that joins their
conditions. -/
def fanOut? (field : String) : Option (Connective × List String) :=
  (fanSign? field).map fun (k, sign) => (k, Text.items sign field)

/-- A name and its alias. -/
def aliased? (s : String) : Option (String × String) :=
  match Text.words s with
  | [name, short] => some (name, short)
  | [name, keyword, short] =>
    if Text.equalsIgnoringCase keyword "as" then some (name, short) else none
  | _ => none

theorem fanOut?_eq_none_iff {field : String} :
    fanOut? field = none ↔ Text.has field '|' = false ∧ Text.has field '&' = false := by
  simp only [fanOut?, fanSign?]
  split <;> simp_all

end Name

end SqlSelect
