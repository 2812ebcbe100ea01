import SqlSelect.Call

/-!
# Short forms of criteria

What is demanded of a field can be said with an operator in words, with an operand that carries its
operator, or in a short form that has its condition already. If the field text is a name, it makes
no difference how it is said.

* `Name.IsField`: a field text that is a name, perhaps with white space around it;
* `Criterion.resolved`: the condition of an operator that has been read. The words for the operator
  are gone (`Criterion.read_compares_of_parse?`);
* `Criterion.Agrees`: two criteria that leave the same session behind, whatever it was before;
* `Criterion.agrees_of_isField`: the short forms and the criteria in words that agree with them.
-/

namespace SqlSelect

/-- The text without the white space around it is a name. -/
structure Name.IsField (field : String) : Prop where
  ne_empty : Text.trim field ≠ ""
  isName : Name.isExpression (Text.trim field) = false

namespace Criterion

/-- The criteria come to the same in every session and under every connective. -/
def Agrees (c e : Criterion) : Prop :=
  ∀ (s : Session) (k : Connective), (Call.require k c).run s = (Call.require k e).run s

/-- The condition of an operator with its operand. A test for null does not look at it. -/
def resolved (field : String) (operand : Operand) : Operator → Except Fault Condition
  | .isNull => .ok .isNull
  | .isNotNull => .ok .isNotNull
  | o => (Condition.ofOperand o operand).mapError fun cause => .operand cause (some field)

variable {c d e : Criterion} {field op : String} {operand : Operand} {o : Operator}

/-- A draft looks at nothing but what a criterion comes to. -/
theorem agrees_of_read (h : c.read = e.read) : c.Agrees e := by
  intro s k
  rw [Call.run, Call.run, Draft.require, Draft.require, h]

theorem Agrees.trans (hcd : c.Agrees d) (hde : d.Agrees e) : c.Agrees e :=
  fun s k => (hcd s k).trans (hde s k)

/-! ### Criteria on a name -/

theorem read_stated (h : Name.IsField field) (op : Option String) (operand : Option Operand)
    (extra : List Param) :
    (stated field op operand extra).read =
      (condition (Text.trim field) op operand >>= bindExtra (Text.trim field) extra) := by
  simp only [read, readStated, if_neg h.ne_empty, h.isName]
  rfl

/-- Without an operator and an operand the field is tested for null. -/
theorem read_alone (h : Name.IsField field) : (alone field).read = (isNull field).read :=
  read_stated h none none []

/-- The operator is read once, and its words do not come back. -/
theorem read_compares_of_parse? (h : Name.IsField field) (ho : Operator.parse? op = some o)
    (operand : Operand) :
    (compares field op operand).read =
      (resolved (Text.trim field) operand o >>= bindExtra (Text.trim field) []) := by
  have hcondition : condition (Text.trim field) (some op) (some operand) =
      resolved (Text.trim field) operand o := by
    simp only [condition, unpack, withOperator, ho]
    cases o <;> rfl
  rw [compares, read_stated h, hcondition]

/-- An operator that is not known is the fault, with its words. -/
theorem read_compares_of_none (h : Name.IsField field) (ho : Operator.parse? op = none)
    (operand : Operand) :
    (compares field op operand).read = .error (.unknownOperator op (some (Text.trim field))) := by
  rw [compares, read_stated h]
  simp only [condition, unpack, withOperator, ho]
  rfl

/-- An operand that carries its operator is read like the operator with the values behind it. -/
theorem read_is_tuple (h : Name.IsField field) (op : String) (vs : List Value) :
    (is field (.tuple op vs)).read = (compares field op (ofCarried vs)).read := by
  rw [is, compares, read_stated h, read_stated h]
  rfl

theorem ofCarried_of_length {vs : List Value} (h : vs.length ≠ 1) : ofCarried vs = .list vs := by
  match vs with
  | [] => rfl
  | [v] => exact absurd rfl h
  | _ :: _ :: _ => rfl

/-- Two ways to write an operator. -/
theorem agrees_of_parse? (h : Name.IsField field) {op' : String}
    (ho : Operator.parse? op = some o) (ho' : Operator.parse? op' = some o) (operand : Operand) :
    (compares field op operand).Agrees (compares field op' operand) :=
  agrees_of_read ((read_compares_of_parse? h ho operand).trans
    (read_compares_of_parse? h ho' operand).symm)

/-- A short form agrees with an operator in words and an operand that make the same condition, if
this has no raw SQL in it. -/
theorem agrees_onField (h : Name.IsField field) (ho : Operator.parse? op = some o)
    {c : Condition} (hc : resolved (Text.trim field) operand o = .ok c)
    (hextra : bindExtra (Text.trim field) [] c = .ok (.onField (Text.trim field) c)) :
    (compares field op operand).Agrees (onField field c) := by
  refine agrees_of_read ?_
  rw [read_compares_of_parse? h ho, hc]
  exact hextra

/-- The ways to demand something of a field that is a name: tests for null, lists, ranges, patterns
and raw SQL, each in its short form and with the operator in words; an operand that carries its
operator, whether this is known or not; and any two ways to write an operator. The short forms put
their condition on the trimmed field, and an operator that is not known is recorded. -/
theorem agrees_of_isField (h : Name.IsField field) :
    (∀ operand, ∀ c ∈ [alone field, compares field "null" operand], c.Agrees (isNull field)) ∧
      (∀ operand, (compares field "not null" operand).Agrees (isNotNull field)) ∧
      (∀ vs, (compares field "in" (.list vs)).Agrees (isIn field vs false) ∧
        (compares field "not in" (.list vs)).Agrees (isIn field vs true)) ∧
      (∀ low high,
        (compares field "between" (.list [low, high])).Agrees (isBetween field low high false) ∧
        (compares field "not between" (.list [low, high])).Agrees
          (isBetween field low high true)) ∧
      (∀ pattern, (compares field "like" (.value pattern)).Agrees (isLike field pattern) ∧
        (compares field "not like" (.value pattern)).Agrees (isNotLike field pattern)) ∧
      (∀ sql, ∀ operand ∈ [Operand.raw sql, .value (.text sql)],
        (compares field "exp" operand).Agrees (exp field sql [])) ∧
      (∀ op v, (is field (.tuple op [v])).Agrees (compares field op (.value v))) ∧
      (∀ op vs, vs.length ≠ 1 → (is field (.tuple op vs)).Agrees (compares field op (.list vs))) ∧
      (∀ op op' o operand, Operator.parse? op = some o → Operator.parse? op' = some o →
        (compares field op operand).Agrees (compares field op' operand)) ∧
      (∀ (s : Session) k c, (Call.require k (onField field c)).run s =
        (s.withDraft (s.draft.addCondition k (Text.trim field) c), .declared, none)) ∧
      ∀ (s : Session) k op operand, Operator.parse? op = none →
        (Call.require k (compares field op operand)).run s =
          (s.withDraft (s.draft.recordFault (.unknownOperator op (some (Text.trim field)))),
            .declared, none) := by
  refine ⟨fun operand => ?null, fun operand => ?notNull, fun vs => ⟨?isIn, ?notIn⟩,
    fun low high => ⟨?between, ?notBetween⟩, fun pattern => ⟨?like, ?notLike⟩, fun sql => ?exp,
    fun op v => ?single, fun op vs hvs => ?several,
    fun op op' o operand ho ho' => agrees_of_parse? h ho ho' operand, fun s k c => rfl,
    fun s k op operand ho => ?unknown⟩
  case null =>
    rw [List.forall_mem_cons, List.forall_mem_singleton]
    exact ⟨agrees_of_read (read_alone h), agrees_onField h (o := .isNull) (by decide) rfl rfl⟩
  case notNull => exact agrees_onField h (o := .isNotNull) (by decide) rfl rfl
  case isIn => exact agrees_onField h (o := .inList) (by decide) rfl rfl
  case notIn => exact agrees_onField h (o := .notInList) (by decide) rfl rfl
  case between => exact agrees_onField h (o := .between) (by decide) rfl rfl
  case notBetween => exact agrees_onField h (o := .notBetween) (by decide) rfl rfl
  case like => exact agrees_onField h (o := .compare .like) (by decide) rfl rfl
  case notLike => exact agrees_onField h (o := .compare .notLike) (by decide) rfl rfl
  case exp =>
    -- raw SQL in a text is read as the SQL itself
    have hraw : Criterion.exp field sql [] = compares field "exp" (.raw sql) := rfl
    have hexp : Operator.parse? "exp" = some .exp := by decide
    rw [List.forall_mem_cons, List.forall_mem_singleton, hraw]
    refine ⟨fun _ _ => rfl, agrees_of_read ?_⟩
    rw [read_compares_of_parse? h hexp, read_compares_of_parse? h hexp]
    rfl
  case single => exact agrees_of_read (read_is_tuple h op [v])
  case several =>
    refine agrees_of_read ?_
    rw [read_is_tuple h, ofCarried_of_length hvs]
  case unknown =>
    rw [Call.run, Draft.require, read_compares_of_none h ho]

/-- A text of two fields with white space around it, operators in various spellings, and an operand
that carries an operator which is not known. -/
theorem agrees_of_isField_fanSample :
    let field := " u.age|v.age "
    Name.IsField field ∧
      (compares field " IS  Null" (.tuple "in" [])).Agrees (isNull field) ∧
      (compares field "NotBetween" (.list [.int 1, .int 9])).Agrees
        (isBetween field (.int 1) (.int 9) true) ∧
      (is field (.tuple "~~" [.int 1])).Agrees (compares field "~~" (.value (.int 1))) ∧
      ∀ s : Session, ((Call.require .xor (compares field "~~" (.value (.int 1)))).run s).1 =
        s.withDraft (s.draft.recordFault (.unknownOperator "~~" (some "u.age|v.age"))) := by
  intro field
  have hfield : Name.IsField field := ⟨by decide, by decide⟩
  have htrim : Text.trim field = "u.age|v.age" := by decide
  obtain ⟨hnull, -, -, hbetween, -, -, hsingle, -, hspelled, -, hunknown⟩ :=
    agrees_of_isField hfield
  refine ⟨hfield, ?_, ?_, hsingle "~~" (.int 1), fun s => ?_⟩
  · exact (hspelled _ "null" .isNull _ (by decide) (by decide)).trans
      (hnull _ _ (List.mem_cons_of_mem _ (List.mem_singleton_self _)))
  · exact (hspelled _ "not between" .notBetween _ (by decide) (by decide)).trans
      (hbetween (.int 1) (.int 9)).2
  · rw [hunknown s .xor "~~" (.value (.int 1)) (by decide), htrim]

end Criterion

end SqlSelect
