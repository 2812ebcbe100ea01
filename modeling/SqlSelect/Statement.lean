import SqlSelect.Fragment

/-!
# Statements

A `Statement` is SQL text with the parameters for its marks. `Statement.realSql` writes the
parameters in place, for people to read.
-/

namespace SqlSelect

/-- A rendered statement. -/
structure Statement where
  sql : String
  params : List Param
  fetchSql : Bool

namespace Statement

/-- The statement of a fragment. -/
def ofFragment (f : Fragment) (fetchSql : Bool) : Statement :=
  let output := f.write {}
  ⟨output.sql, output.params, fetchSql⟩

/-- The text with the parameters written in place. -/
def realSql (s : Statement) : String := Placeholder.inlined s.sql s.params

/-- The statement with further parameters behind its own. -/
def withParams (s : Statement) (ps : List Param) : Statement :=
  { s with params := s.params ++ ps }

@[simp] theorem sql_ofFragment (f : Fragment) (fetchSql : Bool) :
    (ofFragment f fetchSql).sql = f.sql := by
  simp [ofFragment, Fragment.write_eq]

@[simp] theorem params_ofFragment (f : Fragment) (fetchSql : Bool) :
    (ofFragment f fetchSql).params = f.params := by
  simp [ofFragment, Fragment.write_eq]

@[simp] theorem sql_withParams (s : Statement) (ps : List Param) :
    (s.withParams ps).sql = s.sql := rfl

@[simp] theorem params_withParams (s : Statement) (ps : List Param) :
    (s.withParams ps).params = s.params ++ ps := rfl

end Statement

end SqlSelect
