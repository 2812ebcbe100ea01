import SqlSelect.KeyData

/-!
# Programs of calls

A `Call` is one thing that can be done with a draft, as data; what is done to a nested draft is a
list of calls inside of it. Running calls gives the state that they leave and a record of what each
did.

* `Call`: declarations, conditions, nested drafts, and questions with an answer;
* `Session`: a draft with the document that was last made of it;
* `Step`: the draft before and after a call, the answer, and the steps of a nested draft;
* `Call.run`, `Call.runAll`.
-/

namespace SqlSelect

/-- One thing that can be done with a draft. -/
inductive Call
  /-- Names the draft for a record type. -/
  | name (s : String)
  /-- Sets the primary key of this draft. -/
  | key (key : PrimaryKey)
  /-- Sets how this draft is written. -/
  | renderer (r : Renderer)
  | declare (x : Declaration)
  | bind (ps : List Param)
  | clearBinds
  | require (k : Connective) (c : Criterion)
  | requireAll (k : Connective) (cs : List Criterion)
  /-- Conditions in parentheses. -/
  | group (k : Connective) (body : List Call)
  /-- A subquery has a row, or has none. -/
  | exist (k : Connective) (negated : Bool) (body : List Call)
  /-- A field is in a subquery, or is not. -/
  | membership (k : Connective) (field : String) (negated : Bool) (body : List Call)
  | union (all : Bool) (body : List Call)
  /-- Calls on a copy, which then is dropped. -/
  | fork (body : List Call)
  /-- Calls on a new draft under the same settings, which then is dropped. -/
  | child (body : List Call)
  /-- Closes the draft and saves the document. -/
  | normalize
  /-- Saves the document without closing the draft. -/
  | finish
  | select
  | find
  | findByKey (data : KeyData)
  /-- The statement of the saved document, with the named parameters. -/
  | build
  /-- The statement of the saved document alone. -/
  | render
  /-- Adds the key condition to the saved document. -/
  | requireKey (data : KeyData)
  /-- Asks for nothing but the state. -/
  | look
  /-- Asks for a named parameter. -/
  | getBind (name : String)

/-- The answer to a call. -/
inductive Answer
  /-- The call was a declaration. -/
  | declared
  | statement (result : Except Error Statement)
  | document (result : Except Error Document)
  /-- No document is saved. -/
  | nothingSaved
  /-- The state of the draft is the answer. -/
  | state
  | param (result : Option Param)

/-- A draft with the document that was last made of it. -/
structure Session where
  draft : Draft
  saved : Option Document := none

/-- What a call did. -/
structure Step where
  before : Draft
  after : Draft
  answer : Answer
  /-- What the calls on a nested draft did. -/
  inner : Option (List Step) := none

namespace Session

/-- The session with another draft. -/
def withDraft (s : Session) (d : Draft) : Session := { s with draft := d }

/-- The session with a document saved, if there is one. -/
def save (s : Session) : Except Error Document → Session
  | .ok doc => { s with saved := some doc }
  | .error _ => s

/-- The answer that needs a saved document. -/
def ofSaved (s : Session) (f : Document → Answer) : Answer := (s.saved.map f).getD .nothingSaved

/-- The result of adding the key condition to the saved document. -/
def keyed? (s : Session) (data : KeyData) : Option (Except Error Document) :=
  s.saved.map fun doc => doc.requireKey s.draft.settings data

end Session

mutual

/-- The session after a call, the answer, and the steps of a nested draft. -/
def Call.run (s : Session) : Call → Session × Answer × Option (List Step)
  | .name n => (s.withDraft { s.draft with name := n }, .declared, none)
  | .key k => (s.withDraft { s.draft with settings := s.draft.settings.withKey k }, .declared, none)
  | .renderer r => (s.withDraft { s.draft with renderer := r }, .declared, none)
  | .declare x => (s.withDraft (s.draft.declare x), .declared, none)
  | .bind ps => (s.withDraft (s.draft.bind ps), .declared, none)
  | .clearBinds => (s.withDraft s.draft.clearBinds, .declared, none)
  | .require k c => (s.withDraft (s.draft.require k c), .declared, none)
  | .requireAll k cs => (s.withDraft (s.draft.requireAll k cs), .declared, none)
  | .group k body =>
    let (inner, steps) := Call.runAll ⟨s.draft.child, none⟩ body
    (s.withDraft (s.draft.adoptGroup k inner.draft), .declared, some steps)
  | .exist k negated body =>
    let (inner, steps) := Call.runAll ⟨s.draft.child, none⟩ body
    (s.withDraft (s.draft.adoptExists k negated inner.draft), .declared, some steps)
  | .membership k field negated body =>
    let (inner, steps) := Call.runAll ⟨s.draft.child, none⟩ body
    (s.withDraft (s.draft.adoptMembership k field negated inner.draft), .declared, some steps)
  | .union all body =>
    let (inner, steps) := Call.runAll ⟨s.draft.child, none⟩ body
    (s.withDraft (s.draft.adoptUnion all inner.draft), .declared, some steps)
  | .fork body => (s, .declared, some (Call.runAll ⟨s.draft, none⟩ body).2)
  | .child body => (s, .declared, some (Call.runAll ⟨s.draft.child, none⟩ body).2)
  | .normalize =>
    let (result, draft) := s.draft.normalize
    ((s.withDraft draft).save result, .document result, none)
  | .finish => (s.save s.draft.normalize.1, .document s.draft.normalize.1, none)
  | .select => (s.withDraft s.draft.select.2, .statement s.draft.select.1, none)
  | .find => (s.withDraft s.draft.find.2, .statement s.draft.find.1, none)
  | .findByKey data =>
    let (result, draft) := s.draft.findByKey data
    (s.withDraft draft, .statement result, none)
  | .build => (s, s.ofSaved fun doc => .statement (.ok (s.draft.build doc)), none)
  | .render => (s, s.ofSaved fun doc => .statement (.ok (s.draft.renderer.select doc)), none)
  | .requireKey data =>
    match s.keyed? data with
    | some result => (s.save result, .document result, none)
    | none => (s, .nothingSaved, none)
  | .look => (s, .state, none)
  | .getBind n => (s, .param (Params.get? s.draft.binds n), none)

/-- The session after some calls, and what each of them did. -/
def Call.runAll (s : Session) : List Call → Session × List Step
  | [] => (s, [])
  | c :: cs =>
    let (next, answer, inner) := c.run s
    let (last, steps) := Call.runAll next cs
    (last, ⟨s.draft, next.draft, answer, inner⟩ :: steps)

end

/-- Runs calls on a new draft. -/
def Settings.run (settings : Settings) (cs : List Call) : List Step :=
  (Call.runAll ⟨.new settings, none⟩ cs).2

end SqlSelect
