/-!
# Connectives

The words that join conditions: `AND`, `OR` and `XOR`.
-/

namespace SqlSelect

/-- A word that joins conditions. -/
inductive Connective
  | and
  | or
  | xor
  deriving DecidableEq, Repr

/-- The keyword of a connective. -/
def Connective.keyword : Connective → String
  | and => "AND"
  | or => "OR"
  | xor => "XOR"

end SqlSelect
