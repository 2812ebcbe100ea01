import SqlSelect.Name
import SqlSelect.Operand
import SqlSelect.Placeholder

/-!
# Criteria

A `Criterion` is what one call demands of the rows of a statement. `Criterion.read` tells what it
comes to: raw SQL, a condition on a field, or a fault.

* A field text that cannot be a name is an expression of its own, and its operand gives the binds.
* Without an operator, a value is compared for equality, a list for membership, and nothing at all
  is a test for null. An operand may carry its operator.
* Raw SQL must have as many positional marks as it is given binds.
-/

namespace SqlSelect

/-- What one call demands of the rows. -/
inductive Criterion
  /-- A field, perhaps an operator in words and an operand, and binds for raw SQL in them. -/
  | stated (field : String) (op : Option String) (operand : Option Operand) (extra : List Param)
  /-- A condition on a field, as it is. -/
  | onField (field : String) (condition : Condition)
  /-- Raw SQL with its binds. -/
  | raw (sql : String) (binds : List Param)

/-- What a criterion comes to. -/
inductive Demand
  | onField (field : String) (condition : Condition)
  | raw (sql : String) (binds : List Param)

/-- Raw SQL that has as many positional marks as binds for them. -/
def checkBinds (sql : String) (binds : List Param) : Except Fault Unit :=
  let marks := Placeholder.count sql
  let given := Params.positionalCount binds
  if marks = given then .ok () else .error (.bindCount sql marks given)

theorem checkBinds_eq_ok_iff {sql : String} {binds : List Param} :
    checkBinds sql binds = .ok () ↔ Placeholder.count sql = Params.positionalCount binds := by
  simp only [checkBinds]
  split <;> simp_all

/-- The demand of raw SQL. -/
def Demand.ofRaw (sql : String) (binds : List Param) : Except Fault Demand :=
  (checkBinds sql binds).map fun _ => .raw sql binds

namespace Criterion

/-- The binds that an operand gives to an expression. -/
def expressionBinds (field : String) : Option Operand → Except Fault (List Param)
  | none => .ok []
  | some (.value v) => .ok [.positional v]
  | some (.list vs) => .ok (vs.map .positional)
  | some (.tuple _ vs) => .ok (vs.map .positional)
  | some (.raw _) => .error (.rawOperand field)

/-- The operand of an operator that came with its values: one value stands alone. -/
def ofCarried : List Value → Operand
  | [v] => .value v
  | vs => .list vs

/-- The operator and operand of a call, where an operand may carry its operator. -/
def unpack : Option String → Option Operand → Option String × Option Operand
  | none, some (.tuple op vs) => (some op, some (ofCarried vs))
  | op, operand => (op, operand)

/-- The condition of an operator in words. -/
def withOperator (field op : String) (operand : Option Operand) : Except Fault Condition :=
  match Operator.parse? op with
  | none => .error (.unknownOperator op (some field))
  | some .isNull => .ok .isNull
  | some .isNotNull => .ok .isNotNull
  | some operator =>
    match operand with
    | none => .error (.missingOperand op field)
    | some operand =>
      (Condition.ofOperand operator operand).mapError fun cause => .operand cause (some field)

/-- The condition that an operand states without an operator. -/
def withoutOperator : Option Operand → Condition
  | none => .isNull
  | some (.value v) => .eq v
  | some (.list vs) => .inList vs false
  | some (.tuple _ vs) => .inList vs false
  | some (.raw sql) => .compareRaw .eq sql

/-- The condition on a field of that name. -/
def condition (field : String) (op : Option String) (operand : Option Operand) :
    Except Fault Condition :=
  match unpack op operand with
  | (some op, operand) => withOperator field op operand
  | (none, operand) => .ok (withoutOperator operand)

/-- A condition with the binds for raw SQL in it. Other conditions have no use for them. -/
def bindExtra (field : String) (extra : List Param) : Condition → Except Fault Demand
  | .exp sql _ => (checkBinds sql extra).map fun _ => .onField field (.exp sql extra)
  | c => .ok (.onField field c)

/-- What a field, an operator and an operand come to. -/
def readStated (field : String) (op : Option String) (operand : Option Operand)
    (extra : List Param) : Except Fault Demand :=
  let field := Text.trim field
  if field = "" then .error .blankField
  else if Name.isExpression field then do
    let binds ← expressionBinds field operand
    Demand.ofRaw field (binds ++ extra)
  else do
    bindExtra field extra (← condition field op operand)

/-- What a criterion comes to. -/
def read : Criterion → Except Fault Demand
  | stated field op operand extra => readStated field op operand extra
  | onField field condition => .ok (.onField (Text.trim field) condition)
  | raw sql binds => Demand.ofRaw sql binds

/-! ### Short forms -/

/-- The field has the value, is in the list, or whatever the operand states. -/
def is (field : String) (operand : Operand) : Criterion := .stated field none (some operand) []

/-- The field stands before an operator in words and an operand. -/
def compares (field op : String) (operand : Operand) : Criterion :=
  .stated field (some op) (some operand) []

/-- The field alone. -/
def alone (field : String) : Criterion := .stated field none none []

/-- Raw SQL behind the field. -/
def exp (field sql : String) (binds : List Param) : Criterion :=
  .stated field (some "exp") (some (.raw sql)) binds

/-- The field is null. -/
def isNull (field : String) : Criterion := .onField field .isNull

/-- The field is not null. -/
def isNotNull (field : String) : Criterion := .onField field .isNotNull

/-- The field is one of the values, or none of them. -/
def isIn (field : String) (vs : List Value) (negated : Bool) : Criterion :=
  .onField field (.inList vs negated)

/-- The field is between two values, or is not. -/
def isBetween (field : String) (low high : Value) (negated : Bool) : Criterion :=
  .onField field (.between low high negated)

/-- The field matches a pattern. -/
def isLike (field : String) (pattern : Value) : Criterion :=
  .onField field (.compare .like pattern)

/-- The field does not match a pattern. -/
def isNotLike (field : String) (pattern : Value) : Criterion :=
  .onField field (.compare .notLike pattern)

end Criterion

end SqlSelect
