import SqlSelect.Operator

/-!
# Errors

* `OperandFault`: why an operand does not suit its operator;
* `Fault`: what is wrong with a declaration or with the statement as a whole. The fault of a
  subquery stays inside `Fault.subquery`, so that the message tells how deep it lies;
* `Error`: why a result could not be given.

The wording is in `OperandFault.message`, `Fault.message` and `Error.display`.
-/

namespace SqlSelect

/-- Why an operand does not suit its operator. -/
inductive OperandFault
  /-- An operand that carries an operator stands behind another operator. -/
  | secondOperator (op : String)
  /-- A list where one value is expected. -/
  | notSingle (op : Comparison)
  /-- Other than two bounds. -/
  | notTwo (count : Nat)
  /-- No SQL text where one is expected. -/
  | notSql
  deriving DecidableEq, Repr

/-- The wording of an operand's fault. -/
def OperandFault.message : OperandFault → String
  | secondOperator op => "Operator tuple '" ++ op ++ "' cannot follow another operator"
  | notSingle op => "Operator '" ++ op.sql ++ "' expects a single value"
  | notTwo count => "BETWEEN expects 2 values, got " ++ toString count
  | notSql => "Operator 'exp' expects raw SQL text"

/-- What is wrong with a declaration or with the statement as a whole. -/
inductive Fault
  /-- A fault in words. -/
  | stated (message : String)
  /-- A condition on a field without a name. -/
  | blankField
  /-- Raw SQL as the operand of an expression. -/
  | rawOperand (field : String)
  /-- An operator that is not known, and the field before it. -/
  | unknownOperator (op : String) (field : Option String)
  /-- An operator without an operand. -/
  | missingOperand (op field : String)
  /-- An operand that does not suit its operator, and the field before them. -/
  | operand (cause : OperandFault) (field : Option String)
  /-- A raw fragment whose positional marks and binds differ in number. -/
  | bindCount (sql : String) (marks given : Nat)
  /-- A fault of a subquery. -/
  | subquery (cause : Fault)
  /-- A statement without a table. -/
  | noTable
  /-- A page that begins beyond the last row number. -/
  | pageOverflow (number : Int) (size : Nat)
  deriving DecidableEq, Repr

/-- The wording of a fault. -/
def Fault.message : Fault → String
  | stated message => message
  | blankField => "Empty field name in where condition"
  | rawOperand field => "Raw field '" ++ field ++ "' cannot take a raw operand"
  | unknownOperator op none => "Unknown operator '" ++ op ++ "'"
  | unknownOperator op (some field) => "Unknown operator '" ++ op ++ "' on field '" ++ field ++ "'"
  | missingOperand op field => "Operator '" ++ op ++ "' on field '" ++ field ++ "' needs a value"
  | operand cause none => cause.message
  | operand cause (some field) => cause.message ++ " (field '" ++ field ++ "')"
  | bindCount sql marks given =>
    "Raw fragment '" ++ sql ++ "' has " ++ toString marks ++ " placeholder(s) but " ++
      toString given ++ " bind(s)"
  | subquery cause => "subquery: " ++ cause.message
  | noTable => "No table specified"
  | pageOverflow number size =>
    "Page " ++ toString number ++ " of size " ++ toString size ++ " overflows the offset"

/-- Why a result could not be given. -/
inductive Error
  /-- A composite key has no value for a column. -/
  | missingKeyColumn (column : String)
  /-- The declarations do not make a statement. -/
  | invalid (cause : Fault)
  /-- A text could not be read as settings. -/
  | serialization (message : String)
  | other (message : String)
  deriving DecidableEq, Repr

namespace Error

/-- The error in words, with its kind in front. -/
def display : Error → String
  | missingKeyColumn column => "Missing composite primary key data for column '" ++ column ++ "'"
  | invalid cause => "Validation error: " ++ cause.message
  | serialization message => "Serialization error: " ++ message
  | other message => message

/-- The error in words, without its kind where there are other words. -/
def message : Error → String
  | missingKeyColumn column => (missingKeyColumn column).display
  | invalid cause => cause.message
  | serialization message => message
  | other message => message

/-- Is a column of a composite key missing? -/
def isMissingKeyColumn : Error → Bool
  | missingKeyColumn _ => true
  | _ => false

/-- Do the declarations not make a statement? -/
def isInvalid : Error → Bool
  | invalid _ => true
  | _ => false

end Error

end SqlSelect
