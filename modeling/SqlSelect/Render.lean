import SqlSelect.ClauseText
import SqlSelect.Junction
import SqlSelect.Statement
import SqlSelect.Template

/-!
# Rendering

A document is rendered clause by clause, and its conditions entry by entry, to a fragment: text
and values come out of one pass and cannot drift apart.

* `Condition.render`, `Entry.render`, `Branch.render`, `UnionItem.render`, `Document.render`;
* `Renderer.select`: the statement of a document.

The functions that end in `renderEach` and the like go through the lists of a document; the lemmas
at the end say so.
-/

namespace SqlSelect

/-- The word in front of a negated condition. -/
def negation (negated : Bool) : String := if negated then "NOT " else ""

/-- The words in front of a united statement. -/
def unionKeyword (all : Bool) : String := if all then " UNION ALL " else " UNION "

/-- A comparison with a value. Equality with null is a test for null. -/
def Comparison.render (op : Comparison) (key : String) (v : Value) : Fragment :=
  match op, v with
  | .eq, .null => .ofText (key ++ " IS NULL")
  | .neq, .null => .ofText (key ++ " IS NOT NULL")
  | op, v => [.text (key ++ " " ++ op.sql ++ " "), .mark v]

/-- Membership in a list of values. No value is in the empty list. -/
def renderMembers (key : String) (vs : List Value) (negated : Bool) : Fragment :=
  if vs.isEmpty then .ofText (if negated then "1=1" else "1=0")
  else (Fragment.marks vs).within (key ++ " " ++ negation negated ++ "IN (") ")"

/-- The conditions on the fields that a field text stands for. `conditions` gives them for a field
as it is written. -/
def renderField (s : Scope) (field : String) (conditions : String → List Fragment) : Fragment :=
  match Name.fanOut? field with
  | some (k, names) =>
    (Junction.mk k (names.map fun n => .conjoined (conditions (s.key n)))).render.enclosed
  | none => .conjoined (conditions (s.key field))

/-- A body of conditions with a condition that must hold besides. -/
def renderBesides (body : Fragment) : Option Fragment → Fragment
  | none => body
  | some soft => (Junction.mk .and (Fragment.visible [body.enclosedIfAny, soft])).render

/-- The WHERE clause with a body, absent if the body is empty. -/
def renderWhere (body : Fragment) : Fragment :=
  if body.isEmpty then [] else .text " WHERE " :: body

mutual

/-- A condition on the field that is written `key`. -/
def Condition.render (s : Scope) (key : String) : Condition → Fragment
  | .compare op v => op.render key v
  | .compareRaw op sql => .ofText (key ++ " " ++ op.sql ++ " " ++ sql)
  | .isNull => .ofText (key ++ " IS NULL")
  | .isNotNull => .ofText (key ++ " IS NOT NULL")
  | .inList vs negated => renderMembers key vs negated
  | .between low high negated =>
    [.text (key ++ " " ++ negation negated ++ "BETWEEN "), .mark low, .text " AND ", .mark high]
  | .exp sql binds => Fragment.within ("(" ++ key ++ " ") ")" [.raw sql binds]
  | .inQuery query negated =>
    (query.render s.renderer).within (key ++ " " ++ negation negated ++ "IN (") ")"

/-- The conditions on the field that is written `key`. -/
def Condition.renderEach (s : Scope) (key : String) : List Condition → List Fragment
  | [] => []
  | c :: cs => c.render s key :: Condition.renderEach s key cs

/-- A member of a WHERE clause. -/
def Entry.render (s : Scope) : Entry → Fragment
  | .field name cs => renderField s name fun key => Condition.renderEach s key cs
  | .raw sql binds => Fragment.enclosed [.raw sql binds]
  | .group bs => (Junction.renderAll (Branch.renderEach s bs)).enclosedIfAny
  | .exist query negated =>
    (query.render s.renderer).within (negation negated ++ "EXISTS (") ")"

/-- The members of a branch. -/
def Entry.renderEach (s : Scope) : List Entry → List Fragment
  | [] => []
  | e :: es => e.render s :: Entry.renderEach s es

/-- A branch: its connective and its members that have any text. -/
def Branch.render (s : Scope) : Branch → Junction
  | ⟨k, es⟩ => ⟨k, Fragment.visible (Entry.renderEach s es)⟩

/-- The branches of a WHERE clause. -/
def Branch.renderEach (s : Scope) : List Branch → List Junction
  | [] => []
  | b :: bs => b.render s :: Branch.renderEach s bs

/-- A statement united with the main one. -/
def UnionItem.render (r : Renderer) : UnionItem → Fragment
  | .raw sql all => .ofText (unionKeyword all ++ "(" ++ TableName.expand r.tablePrefix sql ++ ")")
  | .query query all => (query.render r).within (unionKeyword all ++ "(") ")"

/-- The statements united with the main one. -/
def UnionItem.renderAll (r : Renderer) : List UnionItem → Fragment
  | [] => []
  | u :: us => u.render r ++ UnionItem.renderAll r us

/-- The condition of a soft delete. -/
def SoftDelete.render (s : Scope) : SoftDelete → Fragment
  | ⟨field, condition⟩ => renderField s field fun key => [condition.render s key]

/-- The condition of a soft delete, if there is one. -/
def SoftDelete.renderOption (s : Scope) : Option SoftDelete → Option Fragment
  | none => none
  | some soft => some (soft.render s)

/-- A document. -/
def Document.render (r : Renderer) : Document → Fragment
  | d@{ aliases, filter, unions, softDelete, .. } =>
    let scope : Scope := ⟨r, aliases⟩
    let filter := Junction.renderAll (Branch.renderEach scope filter)
    let soft := SoftDelete.renderOption scope softDelete
    let unions := UnionItem.renderAll r unions
    Template.fill
      (fun
        | .filter => renderWhere (renderBesides filter soft)
        | .unions => unions
        | slot => Fragment.ofText (d.clauseText r slot))
      Template.select

end

/-- The statement of a document. -/
def Renderer.select (r : Renderer) (d : Document) : Statement :=
  .ofFragment (d.render r) d.fetchSql

/-- The body of the WHERE clause of a document, without its soft delete. -/
def Document.renderFilter (r : Renderer) (d : Document) : Fragment :=
  Junction.renderAll (Branch.renderEach (d.scope r) d.filter)

/-- The clause of a document that stands in a slot. -/
def Document.renderClause (r : Renderer) (d : Document) : Slot → Fragment
  | .filter =>
    renderWhere (renderBesides (d.renderFilter r) (d.softDelete.map (·.render (d.scope r))))
  | .unions => UnionItem.renderAll r d.unions
  | slot => Fragment.ofText (d.clauseText r slot)

/-! ### Rendering lists -/

theorem Condition.renderEach_eq_map (s : Scope) (key : String) (cs : List Condition) :
    Condition.renderEach s key cs = cs.map (Condition.render s key) := by
  induction cs with
  | nil => rfl
  | cons c cs ih => simp [Condition.renderEach, ih]

theorem Entry.renderEach_eq_map (s : Scope) (es : List Entry) :
    Entry.renderEach s es = es.map (Entry.render s) := by
  induction es with
  | nil => rfl
  | cons e es ih => simp [Entry.renderEach, ih]

theorem Branch.renderEach_eq_map (s : Scope) (bs : List Branch) :
    Branch.renderEach s bs = bs.map (Branch.render s) := by
  induction bs with
  | nil => rfl
  | cons b bs ih => simp [Branch.renderEach, ih]

theorem UnionItem.renderAll_eq_flatMap (r : Renderer) (us : List UnionItem) :
    UnionItem.renderAll r us = us.flatMap (UnionItem.render r) := by
  induction us with
  | nil => rfl
  | cons u us ih => simp [UnionItem.renderAll, ih]

theorem SoftDelete.renderOption_eq_map (s : Scope) (x : Option SoftDelete) :
    SoftDelete.renderOption s x = x.map (SoftDelete.render s) := by
  cases x <;> rfl

/-- A document is its clauses in the order of the layout. -/
theorem Document.render_eq_fill (r : Renderer) (d : Document) :
    d.render r = Layout.fill (d.renderClause r) Layout.select := by
  cases d
  rw [Document.render, Template.fill_select]
  congr 1
  funext slot
  cases slot <;> simp [Document.renderClause, Document.renderFilter, Document.scope,
    SoftDelete.renderOption_eq_map]

end SqlSelect
