import SqlSelect.Document
import SqlSelect.Proofs.Text.Alphabet

/-!
# The leaves of a document

A document is a tree, and all that it says stands at its leaves: texts, values, and raw SQL.

* `DocumentInduction`: what is to be shown of each kind of node for a property of all documents;
* `Leaf`, `Document.leaves`: the leaves in the order in which they are written. The conditions on a
  field text that stands for several fields are written once for each of them;
* `Leaf.bound`: the leaves that may have marks.
-/

namespace SqlSelect

/-! ### Induction -/

/-- A property of the nodes of documents that each node has if the nodes below it do. -/
structure DocumentInduction (C : Condition → Prop) (E : Entry → Prop) (B : Branch → Prop)
    (U : UnionItem → Prop) (D : Document → Prop) : Prop where
  compare : ∀ op v, C (.compare op v)
  compareRaw : ∀ op sql, C (.compareRaw op sql)
  isNull : C .isNull
  isNotNull : C .isNotNull
  inList : ∀ vs negated, C (.inList vs negated)
  between : ∀ low high negated, C (.between low high negated)
  exp : ∀ sql binds, C (.exp sql binds)
  inQuery : ∀ query negated, D query → C (.inQuery query negated)
  field : ∀ name cs, (∀ c ∈ cs, C c) → E (.field name cs)
  raw : ∀ sql binds, E (.raw sql binds)
  group : ∀ bs, (∀ b ∈ bs, B b) → E (.group bs)
  exist : ∀ query negated, D query → E (.exist query negated)
  branch : ∀ k es, (∀ e ∈ es, E e) → B ⟨k, es⟩
  unionRaw : ∀ sql all, U (.raw sql all)
  unionQuery : ∀ query all, D query → U (.query query all)
  document : ∀ d : Document, (∀ b ∈ d.filter, B b) → (∀ s ∈ d.softDelete, C s.condition) →
    (∀ u ∈ d.unions, U u) → D d

namespace DocumentInduction

variable {C : Condition → Prop} {E : Entry → Prop} {B : Branch → Prop} {U : UnionItem → Prop}
  {D : Document → Prop}

mutual

theorem ofCondition (h : DocumentInduction C E B U D) : ∀ c, C c
  | .compare op v => h.compare op v
  | .compareRaw op sql => h.compareRaw op sql
  | .isNull => h.isNull
  | .isNotNull => h.isNotNull
  | .inList vs negated => h.inList vs negated
  | .between low high negated => h.between low high negated
  | .exp sql binds => h.exp sql binds
  | .inQuery query negated => h.inQuery query negated (h.ofDocument query)

theorem ofConditions (h : DocumentInduction C E B U D) : ∀ cs : List Condition, ∀ c ∈ cs, C c
  | [] => fun _ hc => absurd hc List.not_mem_nil
  | c :: cs => List.forall_mem_cons.2 ⟨h.ofCondition c, h.ofConditions cs⟩

theorem ofEntry (h : DocumentInduction C E B U D) : ∀ e, E e
  | .field name cs => h.field name cs (h.ofConditions cs)
  | .raw sql binds => h.raw sql binds
  | .group bs => h.group bs (h.ofBranches bs)
  | .exist query negated => h.exist query negated (h.ofDocument query)

theorem ofEntries (h : DocumentInduction C E B U D) : ∀ es : List Entry, ∀ e ∈ es, E e
  | [] => fun _ he => absurd he List.not_mem_nil
  | e :: es => List.forall_mem_cons.2 ⟨h.ofEntry e, h.ofEntries es⟩

theorem ofBranch (h : DocumentInduction C E B U D) : ∀ b, B b
  | ⟨k, es⟩ => h.branch k es (h.ofEntries es)

theorem ofBranches (h : DocumentInduction C E B U D) : ∀ bs : List Branch, ∀ b ∈ bs, B b
  | [] => fun _ hb => absurd hb List.not_mem_nil
  | b :: bs => List.forall_mem_cons.2 ⟨h.ofBranch b, h.ofBranches bs⟩

theorem ofUnionItem (h : DocumentInduction C E B U D) : ∀ u, U u
  | .raw sql all => h.unionRaw sql all
  | .query query all => h.unionQuery query all (h.ofDocument query)

theorem ofUnionItems (h : DocumentInduction C E B U D) : ∀ us : List UnionItem, ∀ u ∈ us, U u
  | [] => fun _ hu => absurd hu List.not_mem_nil
  | u :: us => List.forall_mem_cons.2 ⟨h.ofUnionItem u, h.ofUnionItems us⟩

theorem ofSoftDelete (h : DocumentInduction C E B U D) : ∀ s : SoftDelete, C s.condition
  | ⟨_, c⟩ => h.ofCondition c

theorem ofSoftDeletes (h : DocumentInduction C E B U D) :
    ∀ x : Option SoftDelete, ∀ s ∈ x, C s.condition
  | none => fun _ hs => absurd hs (Option.not_mem_none _)
  | some s => fun _ hs => Option.mem_some.1 hs ▸ h.ofSoftDelete s

theorem ofDocument (h : DocumentInduction C E B U D) : ∀ d, D d
  | { filter, softDelete, unions, .. } =>
    h.document _ (h.ofBranches filter) (h.ofSoftDeletes softDelete) (h.ofUnionItems unions)

end

end DocumentInduction

/-! ### Leaves -/

/-- What a document says in one place. -/
inductive Leaf
  /-- A text without binds. -/
  | text (s : String)
  /-- A value to bind. -/
  | value (v : Value)
  /-- Raw SQL that a field is compared with; it has no binds. -/
  | operand (sql : String)
  /-- Raw SQL with its binds. -/
  | raw (sql : String) (binds : List Param)

namespace Leaf

/-- Is the leaf a text without binds? -/
def isText : Leaf → Bool
  | text _ => true
  | _ => false

/-- The leaves that may have marks. -/
def bound (ls : List Leaf) : List Leaf := ls.filter fun l => !l.isText

@[simp] theorem bound_nil : bound [] = [] := rfl
@[simp] theorem bound_cons_text (s : String) (ls : List Leaf) :
    bound (.text s :: ls) = bound ls := rfl
@[simp] theorem bound_append (ls ms : List Leaf) : bound (ls ++ ms) = bound ls ++ bound ms :=
  List.filter_append ..

@[simp] theorem bound_map_text (ss : List String) : bound (ss.map .text) = [] := by
  simp [bound, isText]

theorem bound_flatMap {α : Type} (f : α → List Leaf) (as : List α) :
    bound (as.flatMap f) = as.flatMap fun a => bound (f a) := by
  induction as with
  | nil => rfl
  | cons a as ih => simp [ih]

/-- The parameters that a leaf binds. -/
def params : Leaf → List Param
  | text _ => []
  | value v => [.positional v]
  | operand _ => []
  | raw _ binds => binds

end Leaf

/-- The texts of a selected field. -/
def FieldItem.texts : FieldItem → List String
  | .column name => [name]
  | .aliased name short => [name, short]
  | .raw sql => [sql]

/-- The texts of a list of selected fields. -/
def FieldList.texts : FieldList → List String
  | .all => []
  | .items is => is.flatMap FieldItem.texts

/-- The texts of a condition of a join. -/
def JoinOn.texts : JoinOn → List String
  | .eq left right => [left, right]
  | .text s => [s]
  | .raw sql => [sql]

/-- The texts of a join. -/
def Join.texts (j : Join) : List String := j.table :: j.on.flatMap JoinOn.texts

/-- The text of an item of the order. -/
def OrderItem.texts : OrderItem → List String
  | .field name _ => [name]
  | .raw sql => [sql]

/-- The texts of the flat clauses. -/
def Document.clauseTexts (d : Document) : List String :=
  d.tables ++ d.aliases.entries.map Prod.snd ++ d.fields.texts ++ d.joins.flatMap Join.texts ++
    d.group.toList ++ d.having.toList ++ d.order.flatMap OrderItem.texts ++ d.lock.toList ++
    d.comment.toList ++ d.forced

/-- The leaf of a comparison with a value; a test for null has none. -/
def Comparison.leaves (op : Comparison) (v : Value) : List Leaf :=
  match op, v with
  | .eq, .null => []
  | .neq, .null => []
  | _, v => [.value v]

mutual

/-- The leaves of a condition. -/
def Condition.leaves : Condition → List Leaf
  | .compare op v => op.leaves v
  | .compareRaw _ sql => [.operand sql]
  | .isNull => []
  | .isNotNull => []
  | .inList vs _ => vs.map .value
  | .between low high _ => [.value low, .value high]
  | .exp sql binds => [.raw sql binds]
  | .inQuery query _ => query.leaves

/-- The leaves of conditions. -/
def Condition.leavesEach : List Condition → List Leaf
  | [] => []
  | c :: cs => c.leaves ++ Condition.leavesEach cs

/-- The leaves of a member of a WHERE clause. -/
def Entry.leaves : Entry → List Leaf
  | .field name cs =>
    .text name :: ((Name.fields name).map fun _ => Condition.leavesEach cs).flatten
  | .raw sql binds => [.raw sql binds]
  | .group bs => Branch.leavesEach bs
  | .exist query _ => query.leaves

/-- The leaves of members of a WHERE clause. -/
def Entry.leavesEach : List Entry → List Leaf
  | [] => []
  | e :: es => e.leaves ++ Entry.leavesEach es

/-- The leaves of a branch. -/
def Branch.leaves : Branch → List Leaf
  | ⟨_, es⟩ => Entry.leavesEach es

/-- The leaves of branches. -/
def Branch.leavesEach : List Branch → List Leaf
  | [] => []
  | b :: bs => b.leaves ++ Branch.leavesEach bs

/-- The leaves of a united statement. -/
def UnionItem.leaves : UnionItem → List Leaf
  | .raw sql _ => [.text sql]
  | .query query _ => query.leaves

/-- The leaves of united statements. -/
def UnionItem.leavesEach : List UnionItem → List Leaf
  | [] => []
  | u :: us => u.leaves ++ UnionItem.leavesEach us

/-- The leaves of a soft delete. -/
def SoftDelete.leaves : SoftDelete → List Leaf
  | ⟨field, condition⟩ =>
    .text field :: ((Name.fields field).map fun _ => condition.leaves).flatten

/-- The leaves of a soft delete, if there is one. -/
def SoftDelete.leavesOption : Option SoftDelete → List Leaf
  | none => []
  | some s => s.leaves

/-- The leaves of a document. The names behind which the aliases are kept, and the view, are never
written and are not among them. -/
def Document.leaves : Document → List Leaf
  | d@{ filter, softDelete, unions, .. } =>
    d.clauseTexts.map .text ++ Branch.leavesEach filter ++ SoftDelete.leavesOption softDelete ++
      UnionItem.leavesEach unions

end

theorem Condition.leavesEach_eq_flatMap (cs : List Condition) :
    Condition.leavesEach cs = cs.flatMap Condition.leaves := by
  induction cs with
  | nil => rfl
  | cons c cs ih => simp [Condition.leavesEach, ih]

theorem Entry.leavesEach_eq_flatMap (es : List Entry) :
    Entry.leavesEach es = es.flatMap Entry.leaves := by
  induction es with
  | nil => rfl
  | cons e es ih => simp [Entry.leavesEach, ih]

theorem Branch.leavesEach_eq_flatMap (bs : List Branch) :
    Branch.leavesEach bs = bs.flatMap Branch.leaves := by
  induction bs with
  | nil => rfl
  | cons b bs ih => simp [Branch.leavesEach, ih]

theorem UnionItem.leavesEach_eq_flatMap (us : List UnionItem) :
    UnionItem.leavesEach us = us.flatMap UnionItem.leaves := by
  induction us with
  | nil => rfl
  | cons u us ih => simp [UnionItem.leavesEach, ih]

theorem Document.leaves_eq (d : Document) :
    d.leaves = d.clauseTexts.map .text ++ Branch.leavesEach d.filter ++
      SoftDelete.leavesOption d.softDelete ++ UnionItem.leavesEach d.unions := by
  cases d
  rw [Document.leaves]

end SqlSelect
