import SqlSelect.Value

/-!
# Parameters

A rendered statement carries a list of parameters. One without a name belongs to the next
positional mark `?`; a named one belongs to every mark `:name`.

* `Param.positional`, `Param.named`: a parameter of the value's own type;
* `Params.unnamed`: the values for the positional marks, in order;
* `Params.get?`: the first parameter of a name.
-/

namespace SqlSelect

/-- A value bound under a parameter type, for a positional or for a named mark. -/
structure Param where
  name : Option String := none
  value : Value
  bindType : BindType := value.bindType

namespace Param

/-- The parameter for a positional mark. -/
def positional (v : Value) : Param := { value := v }

/-- The parameter for the marks of a name. -/
def named (name : String) (v : Value) : Param := { name := some name, value := v }

/-- The parameter sent as another type. -/
def withType (p : Param) (t : BindType) : Param := { p with bindType := t }

/-- Does the parameter belong to a named mark? -/
def isNamed (p : Param) : Bool := p.name.isSome

@[simp] theorem isNamed_positional (v : Value) : (positional v).isNamed = false := rfl
@[simp] theorem value_positional (v : Value) : (positional v).value = v := rfl

end Param

namespace Params

/-- The values for the positional marks, in order. -/
def unnamed (ps : List Param) : List Value := (ps.filter (!·.isNamed)).map Param.value

/-- The number of parameters for positional marks. -/
def positionalCount (ps : List Param) : Nat := (unnamed ps).length

/-- The first parameter of a name. -/
def get? (ps : List Param) (name : String) : Option Param := ps.find? (·.name == some name)

@[simp] theorem unnamed_nil : unnamed [] = [] := rfl

@[simp] theorem unnamed_append (ps qs : List Param) :
    unnamed (ps ++ qs) = unnamed ps ++ unnamed qs := by simp [unnamed]

@[simp] theorem positionalCount_append (ps qs : List Param) :
    positionalCount (ps ++ qs) = positionalCount ps + positionalCount qs := by
  simp [positionalCount]

end Params

end SqlSelect
