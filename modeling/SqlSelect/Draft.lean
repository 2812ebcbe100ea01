import SqlSelect.Criterion
import SqlSelect.Declaration
import SqlSelect.Page
import SqlSelect.Render
import SqlSelect.Settings
import SqlSelect.Text.SnakeCase
import SqlSelect.View

/-!
# Drafts

A `Draft` is a statement under declaration. Faults are kept, and only the first of them, until the
draft is closed.

* `Ledger`: the conditions declared for each field under each connective;
* `Draft.declare`, `Draft.require`, `Draft.bind`: declarations;
* `Draft.adoptGroup`, `Draft.adoptQuery`: what a nested draft gives to the draft around it;
* `Draft.normalize`: the finished document, and the draft made ready for the next statement. Named
  binds stay.
-/

namespace SqlSelect

/-! ### The ledger -/

/-- The conditions declared for a field under a connective. -/
structure LedgerRow where
  connective : Connective
  field : String
  conditions : List Condition

/-- All conditions on fields since the draft was last closed. -/
abbrev Ledger := List LedgerRow

namespace Ledger

/-- The conditions declared for a field under a connective. -/
def conditions (k : Connective) (field : String) : Ledger → List Condition
  | [] => []
  | r :: rs =>
    if r.connective = k ∧ r.field = field then r.conditions else conditions k field rs

/-- One more condition on a field under a connective. -/
def record (k : Connective) (field : String) (c : Condition) : Ledger → Ledger
  | [] => [⟨k, field, [c]⟩]
  | r :: rs =>
    if r.connective = k ∧ r.field = field then ⟨k, field, r.conditions ++ [c]⟩ :: rs
    else r :: record k field c rs

theorem conditions_record (k j : Connective) (field other : String) (c : Condition) (l : Ledger) :
    conditions j other (record k field c l) =
      if j = k ∧ other = field then conditions k field l ++ [c] else conditions j other l := by
  induction l with
  | nil =>
    by_cases h : j = k ∧ other = field
    · simp [record, conditions, h]
    · have h' : ¬(k = j ∧ field = other) := fun e => h ⟨e.1.symm, e.2.symm⟩
      simp [record, conditions, h, h']
  | cons r rs ih =>
    rw [record]
    split
    · next hr =>
      by_cases h : j = k ∧ other = field
      · simp [conditions, h, hr]
      · have h' : ¬(k = j ∧ field = other) := fun e => h ⟨e.1.symm, e.2.symm⟩
        simp [conditions, h, h', hr]
    · next hr =>
      by_cases h : r.connective = j ∧ r.field = other
      · have h' : ¬(j = k ∧ other = field) :=
          fun e => hr ⟨h.1.trans e.1, h.2.trans e.2⟩
        simp [conditions, h, h']
      · simp only [conditions, h, hr, if_false]
        exact ih

end Ledger

/-! ### Drafts -/

/-- A statement under declaration. -/
structure Draft where
  settings : Settings
  renderer : Renderer
  name : String := ""
  document : Document := {}
  ledger : Ledger := []
  binds : List Param := []
  fault : Option Fault := none

namespace Draft

/-- A draft on which nothing has been declared. -/
def new (settings : Settings) : Draft := { settings, renderer := settings.renderer }

/-- A new draft under the same settings, written in the same way. -/
def child (d : Draft) : Draft := { settings := d.settings, renderer := d.renderer }

/-- The table of the record type that the draft is named for. -/
def ownTable (d : Draft) : String := d.settings.tablePrefix ++ Text.snakeCase d.name

/-- Keeps a fault, unless there is an earlier one. -/
def recordFault (d : Draft) (f : Fault) : Draft := { d with fault := d.fault.or (some f) }

/-- Declares something about a flat clause. -/
def declare (d : Draft) (x : Declaration) : Draft :=
  { d with document := d.document.declare d.settings.tablePrefix d.ownTable x }

/-- Binds named parameters, behind those that are bound. -/
def bind (d : Draft) (ps : List Param) : Draft := { d with binds := d.binds ++ ps }

/-- Forgets the named parameters. -/
def clearBinds (d : Draft) : Draft := { d with binds := [] }

/-- Changes the conditions of the statement. -/
def updateFilter (d : Draft) (f : List Branch → List Branch) : Draft :=
  { d with document := { d.document with filter := f d.document.filter } }

/-- One more entry under a connective. -/
def pushEntry (d : Draft) (k : Connective) (e : Entry) : Draft :=
  d.updateFilter (Filter.push k e)

/-- One more condition on a field. All conditions that were declared for the field under the
connective stand together in one entry. -/
def addCondition (d : Draft) (k : Connective) (field : String) (c : Condition) : Draft :=
  let ledger := d.ledger.record k field c
  { d with ledger }.updateFilter (Filter.putField k field (ledger.conditions k field))

/-- Adds what a criterion came to. -/
def demand (d : Draft) (k : Connective) : Demand → Draft
  | .onField field c => d.addCondition k field c
  | .raw sql binds => d.pushEntry k (.raw sql binds)

/-- Demands something of the rows, under a connective. -/
def require (d : Draft) (k : Connective) (c : Criterion) : Draft :=
  match c.read with
  | .ok x => d.demand k x
  | .error f => d.recordFault f

/-- Demands several things of the rows, one after the other. -/
def requireAll (d : Draft) (k : Connective) (cs : List Criterion) : Draft :=
  cs.foldl (·.require k ·) d

/-! ### Closing a draft -/

/-- The document with the table of the draft's record type if no table was declared. -/
def withTable (d : Draft) : Except Fault Document :=
  if d.document.tables ≠ [] then .ok d.document
  else if d.name = "" then .error .noTable
  else .ok { d.document with tables := [d.ownTable] }

/-- The document with its page written as a limit. -/
def withLimit (standard : UInt64) (doc : Document) : Except Fault Document :=
  match doc.page with
  | none => .ok doc
  | some page =>
    (page.toLimit doc.limit standard).map fun limit =>
      { doc with page := none, limit := some limit }

/-- The document with the columns of its view, if it has one. -/
def withColumns (doc : Document) : Document :=
  match doc.view with
  | none => doc
  | some view => View.apply view doc

/-- The finished document, or the first fault. -/
def finished (d : Draft) : Except Fault Document :=
  match d.fault with
  | some f => .error f
  | none => do
    let doc ← d.withTable
    let doc ← withLimit d.settings.pageSize doc
    return withColumns doc

/-- The draft made ready for the next statement. -/
def reset (d : Draft) : Draft := { d with document := {}, ledger := [], fault := none }

/-- Closes the draft: the finished document or what is wrong with it, and the draft made ready for
the next statement. -/
def normalize (d : Draft) : Except Error Document × Draft :=
  (d.finished.mapError .invalid, d.reset)

/-! ### Nested drafts -/

/-- Takes in a nested draft as a group of conditions. Its first fault and its binds come along. A
group without entries is left out. -/
def adoptGroup (d : Draft) (k : Connective) (inner : Draft) : Draft :=
  let d := (inner.fault.map d.recordFault).getD d
  let d := d.bind inner.binds
  if Filter.isEmpty inner.document.filter then d else d.pushEntry k (.group inner.document.filter)

/-- Takes in a nested draft as a subquery and puts its document in place. Its binds come along, and
so does its fault. -/
def adoptQuery (d : Draft) (inner : Draft) (place : Draft → Document → Draft) : Draft :=
  let d := d.bind inner.binds
  match inner.finished with
  | .ok doc => place d doc
  | .error f => d.recordFault (.subquery f)

/-- Demands that a subquery has a row, or has none. -/
def adoptExists (d : Draft) (k : Connective) (negated : Bool) (inner : Draft) : Draft :=
  d.adoptQuery inner fun d doc => d.pushEntry k (.exist doc negated)

/-- Demands that a field is in a subquery, or is not. -/
def adoptMembership (d : Draft) (k : Connective) (field : String) (negated : Bool)
    (inner : Draft) : Draft :=
  d.adoptQuery inner fun d doc => d.addCondition k (Text.trim field) (.inQuery doc negated)

/-- Unites the statement with a subquery. -/
def adoptUnion (d : Draft) (all : Bool) (inner : Draft) : Draft :=
  d.adoptQuery inner fun d doc =>
    { d with document := { d.document with unions := d.document.unions ++ [.query doc all] } }

/-! ### Statements -/

/-- The statement of a document, with the named parameters behind its own. -/
def build (d : Draft) (doc : Document) : Statement := (d.renderer.select doc).withParams d.binds

/-- Closes the draft and renders what it was. -/
def select (d : Draft) : Except Error Statement × Draft :=
  (d.normalize.1.map d.build, d.reset)

/-- The document for a single row. -/
def oneRow (doc : Document) : Document := { doc with limit := some { count := 1 } }

/-- Closes the draft and renders what it was for a single row. -/
def find (d : Draft) : Except Error Statement × Draft :=
  (d.normalize.1.map fun doc => d.build (oneRow doc), d.reset)

/-- Only the first fault is kept. -/
theorem fault_recordFault (d : Draft) (f : Fault) :
    (d.recordFault f).fault = some (d.fault.getD f) := by
  cases h : d.fault <;> simp [recordFault, h]

end Draft

end SqlSelect
