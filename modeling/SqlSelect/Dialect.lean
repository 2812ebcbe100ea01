import SqlSelect.Clause
import SqlSelect.Decimal.Numeral
import SqlSelect.Name

/-!
# Dialects

A dialect of SQL is a way to quote keys and to write a limit. `Dialect` is open: any two functions
make one.

* `Dialect.generic` leaves keys as they are;
* `Dialect.mysql` puts backticks around the parts of a plain name. Numbers, `*`, expressions and
  texts with a backtick stay as they are.
-/

namespace SqlSelect

/-- The limit as most dialects write it. -/
def Limit.text (l : Limit) : String :=
  match l.offset with
  | some offset => "LIMIT " ++ toString offset ++ "," ++ toString l.count
  | none => "LIMIT " ++ toString l.count

/-- A way to quote keys and to write limits. -/
structure Dialect where
  name : String
  quote : String → String := id
  limit : Limit → String := Limit.text

namespace Dialect

/-- The dialect without quotes. -/
def generic : Dialect := { name := "generic" }

/-- Is the text a number? -/
def isNumber (s : String) : Bool := (Numeral.parse? s.toList).isSome

/-- A text that is no plain name. -/
def isUnquotable (s : String) : Bool :=
  s = "*" || Text.has s '\x60' || Name.isExpression s || isNumber s

/-- A part of a name in backticks; a star needs none. -/
def quotePart (part : String) : String :=
  if part = "*" then part else "\x60" ++ part ++ "\x60"

/-- A key with its parts in backticks. -/
def quoteParts (key : String) : String :=
  let key := Text.trim key
  if isUnquotable key then key else Text.join "." ((Text.splitOn '.' key).map quotePart)

/-- The dialect with backticks. -/
def mysql : Dialect := { name := "mysql", quote := quoteParts }

@[simp] theorem quote_generic (key : String) : generic.quote key = key := rfl
@[simp] theorem quote_mysql (key : String) : mysql.quote key = quoteParts key := by rw [mysql]

end Dialect

end SqlSelect
