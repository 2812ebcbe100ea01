import SqlSelect.Document
import SqlSelect.Error

/-!
# Operands

* `Operand`: what stands behind an operator: a value, a list, raw SQL, or values that carry an
  operator of their own;
* `Condition.ofOperand`: the condition that an operator and its operand state, or the reason why
  they do not fit;
* `Operator.read`, `Condition.read`: the same from an operator in words.
-/

namespace SqlSelect

/-- What stands behind an operator. -/
inductive Operand
  | value (v : Value)
  | list (vs : List Value)
  | raw (sql : String)
  | tuple (op : String) (vs : List Value)

namespace Condition

/-- The condition that a field equals a value. -/
def eq (v : Value) : Condition := .compare .eq v

/-- The range between two values. -/
def ofBounds (vs : List Value) (negated : Bool) : Except OperandFault Condition :=
  match vs with
  | [low, high] => .ok (.between low high negated)
  | _ => .error (.notTwo vs.length)

/-- The condition that an operator states with its operand. A value lists what is written between
its commas; raw SQL stands behind the field as it is. -/
def ofOperand : Operator → Operand → Except OperandFault Condition
  | _, .tuple inner _ => .error (.secondOperator inner)
  | .isNull, _ => .ok .isNull
  | .isNotNull, _ => .ok .isNotNull
  | .compare op, .value v => .ok (.compare op v)
  | .compare op, .raw sql => .ok (.compareRaw op sql)
  | .compare op, .list _ => .error (.notSingle op)
  | .inList, .value v => .ok (.inList v.listed false)
  | .inList, .list vs => .ok (.inList vs false)
  | .inList, .raw sql => .ok (.exp ("IN (" ++ sql ++ ")") [])
  | .notInList, .value v => .ok (.inList v.listed true)
  | .notInList, .list vs => .ok (.inList vs true)
  | .notInList, .raw sql => .ok (.exp ("NOT IN (" ++ sql ++ ")") [])
  | .between, .value v => ofBounds v.listed false
  | .between, .list vs => ofBounds vs false
  | .between, .raw sql => .ok (.exp ("BETWEEN " ++ sql) [])
  | .notBetween, .value v => ofBounds v.listed true
  | .notBetween, .list vs => ofBounds vs true
  | .notBetween, .raw sql => .ok (.exp ("NOT BETWEEN " ++ sql) [])
  | .exp, .raw sql => .ok (.exp sql [])
  | .exp, .value (.text sql) => .ok (.exp sql [])
  | .exp, _ => .error .notSql

end Condition

/-- Reads an operator in words. -/
def Operator.read (s : String) : Except Fault Operator :=
  match Operator.parse? s with
  | some op => .ok op
  | none => .error (.unknownOperator s none)

/-- The condition that an operator in words states with its operand. -/
def Condition.read (op : String) (operand : Operand) : Except Fault Condition := do
  (ofOperand (← Operator.read op) operand).mapError fun cause => .operand cause none

end SqlSelect
