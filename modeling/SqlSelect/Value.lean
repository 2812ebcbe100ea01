import SqlSelect.Decimal.Shortest
import SqlSelect.Text.WhiteSpace

/-!
# Values

A `Value` is what a statement binds to one of its marks.

* `Value.bindType`: the parameter type a value is bound as;
* `Value.literal`: the value as SQL text, with the quotes of a text doubled;
* `Value.display`: the value as plain text;
* `Value.listed`: the values that a comma-separated text lists.
-/

namespace SqlSelect

/-- A value to bind. Integers have 64 bits. -/
inductive Value
  | null
  | bool (b : Bool)
  | int (n : Int64)
  | float (x : Float)
  | text (s : String)

/-- The parameter type a value is bound as. -/
inductive BindType
  | null
  | bool
  | int
  | str
  deriving DecidableEq, Repr

namespace Value

/-- A natural number as a value; one beyond 64-bit integers is kept exactly as its digits. -/
def ofNat (n : Nat) : Value :=
  if n < Nat.pow 2 63 then .int (Int64.ofNat n) else .text (toString n)

/-- The parameter type a value is bound as by default. Floats are sent as text. -/
def bindType : Value → BindType
  | null => .null
  | bool _ => .bool
  | int _ => .int
  | float _ => .str
  | text _ => .str

/-- Is it the null value? -/
def isNull : Value → Bool
  | null => true
  | _ => false

/-- The text, if the value is one. -/
def text? : Value → Option String
  | text s => some s
  | _ => none

/-- The characters of a text with every quote doubled. -/
def doubleQuotes : List Char → List Char
  | [] => []
  | c :: cs => if c = '\'' then '\'' :: '\'' :: doubleQuotes cs else c :: doubleQuotes cs

/-- The value as SQL text. -/
def literal : Value → String
  | null => "NULL"
  | bool b => if b then "1" else "0"
  | int n => toString n.toInt
  | float x => String.ofList (Binary64.ofFloat x).text
  | text s => "'" ++ String.ofList (doubleQuotes s.toList) ++ "'"

/-- The value as plain text: a text as it is, anything else as its literal. -/
def display : Value → String
  | text s => s
  | v => v.literal

/-- The values that a value stands for where a list is expected: a text with commas stands for the
trimmed texts between them, anything else for itself. -/
def listed : Value → List Value
  | text s =>
    if Text.has s ',' then (Text.splitOn ',' s).map fun part => text (Text.trim part)
    else [text s]
  | v => [v]

@[simp] theorem isNull_iff {v : Value} : v.isNull = true ↔ v = null := by
  cases v <;> simp [isNull]

end Value

end SqlSelect
