import SqlSelect.Decimal.Numeral
import SqlSelect.Error
import SqlSelect.Json
import SqlSelect.Scope

/-!
# Settings

* `PrimaryKey`, `DialectName`, `Settings`: what holds for all statements of an installation;
* `Settings.withPageSize` and the like: settings made in code;
* `Settings.read`: settings read from a JSON text. It may be an object, in which other members are
  passed over and none that is known may be repeated, or an array of the known values in their
  order. What is absent keeps its default.
-/

namespace SqlSelect

/-- The columns that identify a row. -/
inductive PrimaryKey
  | single (column : String)
  | composite (columns : List String)
  deriving DecidableEq, Repr

/-- The dialects that settings can name. -/
inductive DialectName
  | generic
  | mysql
  deriving DecidableEq, Repr

/-- The dialect of a name. -/
def DialectName.dialect : DialectName → Dialect
  | generic => .generic
  | mysql => .mysql

/-- The dialect that a word names. -/
def DialectName.ofWord? : String → Option DialectName
  | "generic" => some generic
  | "mysql" => some mysql
  | _ => none

/-- The size of a page that nothing else says. -/
def standardPageSize : UInt64 := 20

/-- What holds for all statements of an installation. -/
structure Settings where
  tablePrefix : String := ""
  pageSize : UInt64 := standardPageSize
  key : PrimaryKey := .single "id"
  dialect : DialectName := .generic
  deriving DecidableEq, Repr

namespace Settings

/-- Settings with another table prefix. -/
def withTablePrefix (s : Settings) (text : String) : Settings := { s with tablePrefix := text }

/-- Settings with another page size; zero stands for the standard one. -/
def withPageSize (s : Settings) (size : UInt64) : Settings :=
  { s with pageSize := if size = 0 then standardPageSize else size }

/-- Settings with another primary key. -/
def withKey (s : Settings) (key : PrimaryKey) : Settings := { s with key }

/-- Settings with another dialect. -/
def withDialect (s : Settings) (dialect : DialectName) : Settings := { s with dialect }

/-- How statements are written under the settings. -/
def renderer (s : Settings) : Renderer := ⟨s.dialect.dialect, s.tablePrefix⟩

/-! ### Reading -/

/-- A value as text. -/
def text? : Json → Option String
  | .string s => s
  | _ => none

/-- A value as a page size: an integer of 64 bits without a sign. -/
def pageSize? : Json → Option UInt64
  | .number digits =>
    if digits.all Char.isDigit ∧ Numeral.ofDigits digits < UInt64.size then
      some (UInt64.ofNat (Numeral.ofDigits digits))
    else none
  | _ => none

/-- A value as a primary key: a column, or an array of columns. -/
def key? : Json → Option PrimaryKey
  | .string s => s.map .single
  | .array items => (items.mapM text?).map .composite
  | _ => none

/-- A value as a dialect: its name, or an object that says null of its name. -/
def dialect? : Json → Option DialectName
  | .string s => s.bind DialectName.ofWord?
  | .object [(name, .null)] => name.bind DialectName.ofWord?
  | _ => none

/-- A value that may be absent. -/
def optional {α : Type} (read : Json → Option α) (fallback : α) : Option Json → Option α
  | none => some fallback
  | some v => read v

/-- Settings of values that may be absent. -/
def ofValues? (tablePrefix pageSize key dialect : Option Json) : Option Settings := do
  let standard : Settings := {}
  return {
    tablePrefix := ← optional text? standard.tablePrefix tablePrefix
    pageSize := ← optional pageSize? standard.pageSize pageSize
    key := ← optional key? standard.key key
    dialect := ← optional dialect? standard.dialect dialect }

/-- The value of a member that may be absent but not repeated. -/
def member? (members : List (Option String × Json)) (name : String) : Option (Option Json) :=
  match members.filter fun m => m.1 == some name with
  | [] => some none
  | [m] => some (some m.2)
  | _ => none

/-- Settings of a JSON value. -/
def ofJson? : Json → Option Settings
  | .array items =>
    if 4 < items.length then none else ofValues? items[0]? items[1]? items[2]? items[3]?
  | .object members => do
    guard (members.all fun m => m.1.isSome)
    ofValues? (← member? members "prefix") (← member? members "default_page_size")
      (← member? members "pk") (← member? members "dialect")
  | _ => none

/-- Reads settings from a JSON text. -/
def read (s : String) : Except Error Settings :=
  match (Json.read? s).bind ofJson? with
  | some settings => .ok settings
  | none => .error (.serialization "not the settings of an installation")

@[simp] theorem pageSize_withPageSize_ne_zero (s : Settings) (size : UInt64) :
    (s.withPageSize size).pageSize ≠ 0 := by
  simp only [withPageSize]
  split
  · decide
  · assumption

end Settings

end SqlSelect
