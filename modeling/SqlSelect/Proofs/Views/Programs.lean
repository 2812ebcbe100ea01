import SqlSelect.Proofs.Closing
import SqlSelect.Proofs.Ledger

/-!
# Calls without their views

* `Call.unviewedAll`: calls without the views of their draft and of the groups on it. What is called
  on the drafts of subqueries stays as it is;
* `Call.viewPairs`: the pairs of the view of a draft; calls on nested drafts do not count;
* `Session.nested_eq_withView`: calls leave the draft that they leave without their views, with the
  view of those pairs;
* `Draft.finished_withView`: the document of a draft with a view is that of the draft without it,
  with the columns of the view.
-/

namespace SqlSelect

/-! ### Taking views out of calls -/

/-- Does the call give its draft a view? -/
def Call.isView : Call → Bool
  | .declare (.view _) => true
  | _ => false

mutual

/-- What is left of a call without the views of its draft and of the groups on it. -/
def Call.unviewed : Call → List Call
  | .group k body => [.group k (Call.unviewedAll body)]
  | c => if c.isView then [] else [c]

/-- What is left of some calls. -/
def Call.unviewedAll : List Call → List Call
  | [] => []
  | c :: cs => c.unviewed ++ Call.unviewedAll cs

end

/-- The pairs of the view that a draft has after a call, if they were `pairs` before. -/
def Call.viewPairs (pairs : Option (List (String × String))) :
    Call → Option (List (String × String))
  | .declare (.view given) => some given
  | c => if c.isClosing then none else pairs

/-! ### Drafts with another view -/

/-- The document with another view, or without one. -/
def Document.withView (d : Document) (v : Option NameMap) : Document := { d with view := v }

/-- The draft with another view, or without one. -/
def Draft.withView (d : Draft) (v : Option NameMap) : Draft :=
  { d with document := d.document.withView v }

namespace Document

variable {d : Document}

@[simp] theorem withView_view (d : Document) : d.withView d.view = d := by
  cases d
  rfl

/-- Aliases change nothing but the aliases. -/
theorem addAliases_eq (pre : String) (pairs : List (String × String)) (d : Document) :
    d.addAliases pre pairs = { d with
      aliases := pairs.foldl (fun m p => m.insert (TableName.expand pre p.1) p.2) d.aliases } := by
  unfold addAliases
  induction pairs generalizing d with
  | nil =>
    cases d
    rfl
  | cons p pairs ih => exact ih (d.addAlias pre p.1 p.2)

theorem addAliases_withView (pre : String) (pairs : List (String × String)) (d : Document)
    (v : Option NameMap) :
    (d.withView v).addAliases pre pairs = (d.addAliases pre pairs).withView v := by
  rw [addAliases_eq, addAliases_eq]
  rfl

theorem addFields_withView (text : String) (d : Document) (v : Option NameMap) :
    (d.withView v).addFields text = (d.addFields text).withView v := by
  have hfold : ∀ (items : List String) (d : Document),
      items.foldl (fun d item => d.addField (FieldItem.ofText item)) (d.withView v) =
        (items.foldl (fun d item => d.addField (FieldItem.ofText item)) d).withView v := by
    intro items
    induction items with
    | nil => exact fun d => rfl
    | cons item items ih => exact fun d => ih (d.addField (FieldItem.ofText item))
  unfold addFields
  dsimp only
  split
  · rfl
  · split
    · rfl
    · exact hfold _ d

theorem addJoin_withView (pre table : String) (on : List JoinOn) (kind : JoinKind) (d : Document)
    (v : Option NameMap) :
    (d.withView v).addJoin pre table on kind = (d.addJoin pre table on kind).withView v := by
  unfold addJoin
  dsimp only
  generalize (if Text.has (Text.trim table) ')' then (Text.trim table, none)
    else TableSpec.entry (Text.trim table)) = entry
  rcases entry with ⟨name, _ | tableAlias⟩ <;> rfl

/-- Any other declaration leaves the view alone and does not look at it. -/
theorem declare_withView (pre own : String) (d : Document) (v : Option NameMap) {x : Declaration}
    (hx : (Call.declare x).isView = false) :
    (d.withView v).declare pre own x = (d.declare pre own x).withView v := by
  cases x with
  | view pairs => cases hx
  | tables spec =>
    show setTables pre spec.entries (d.withView v) = _
    rw [setTables, addAliases_withView]
    rfl
  | aliases pairs => exact addAliases_withView pre pairs d v
  | fields text => exact addFields_withView text d v
  | join table on kind => exact addJoin_withView pre table on kind d v
  | _ => rfl

end Document

namespace Draft

variable (d : Draft) (v : Option NameMap)

@[simp] theorem child_withView : (d.withView v).child = d.child := rfl
@[simp] theorem view_withView : (d.withView v).document.view = v := rfl

@[simp] theorem withView_view : d.withView d.document.view = d := by
  rw [withView, Document.withView_view]

theorem declare_withView {x : Declaration} (hx : (Call.declare x).isView = false) :
    (d.withView v).declare x = (d.declare x).withView v :=
  congrArg (fun document => { d with document })
    (Document.declare_withView d.settings.tablePrefix d.ownTable d.document v hx)

theorem require_withView (k : Connective) (c : Criterion) :
    (d.withView v).require k c = (d.require k c).withView v := by
  unfold require
  cases c.read with
  | ok x => cases x <;> rfl
  | error f => rfl

theorem requireAll_withView (k : Connective) (cs : List Criterion) :
    (d.withView v).requireAll k cs = (d.requireAll k cs).withView v := by
  unfold requireAll
  induction cs generalizing d with
  | nil => rfl
  | cons c cs ih => rw [List.foldl_cons, List.foldl_cons, require_withView, ih]

/-- The view of a group is not looked at. -/
theorem adoptGroup_withView (k : Connective) (inner : Draft) (w : Option NameMap) :
    (d.withView v).adoptGroup k (inner.withView w) = (d.adoptGroup k inner).withView v := by
  have hfault : ((inner.withView w).fault.map (d.withView v).recordFault).getD (d.withView v) =
      ((inner.fault.map d.recordFault).getD d).withView v := by
    show (inner.fault.map (d.withView v).recordFault).getD (d.withView v) = _
    cases inner.fault <;> rfl
  have hempty : Filter.isEmpty (inner.withView w).document.filter =
      Filter.isEmpty inner.document.filter := rfl
  simp only [adoptGroup, hfault, hempty]
  cases Filter.isEmpty inner.document.filter <;> rfl

theorem adoptQuery_withView (inner : Draft) {place : Draft → Document → Draft}
    (hplace : ∀ e doc, place (e.withView v) doc = (place e doc).withView v) :
    (d.withView v).adoptQuery inner place = (d.adoptQuery inner place).withView v := by
  unfold adoptQuery
  cases inner.finished with
  | ok doc => exact hplace (d.bind inner.binds) doc
  | error f => rfl

end Draft

/-! ### Runs -/

namespace Call

variable {s t : Session} {c : Call}

/-- Calls one after the other. -/
theorem runAll_append (s : Session) (as bs : List Call) :
    (runAll s (as ++ bs)).1 = (runAll (runAll s as).1 bs).1 := by
  induction as generalizing s with
  | nil => rfl
  | cons a as ih => exact ih (a.run s).1

theorem draft_run_of_isClosing (s : Session) (hc : c.isClosing = true) :
    (c.run s).1.draft = s.draft.reset := by
  cases c with
  | normalize => exact draft_run_normalize s
  | select => rfl
  | find => rfl
  | findByKey data => rfl
  | _ => cases hc

/-- A call that neither gives its draft a view nor closes it leaves the view alone and does not look
at it. -/
theorem draft_run_withView (hview : c.isView = false) (hclosing : c.isClosing = false)
    {v : Option NameMap} (h : t.draft = s.draft.withView v) :
    (c.run t).1.draft = (c.run s).1.draft.withView v := by
  have hchild : (⟨t.draft.child, none⟩ : Session) = ⟨s.draft.child, none⟩ := by
    rw [h, Draft.child_withView]
  cases c with
  | declare x => exact (congrArg (Draft.declare · x) h).trans (s.draft.declare_withView v hview)
  | require k c => exact (congrArg (Draft.require · k c) h).trans (s.draft.require_withView v k c)
  | requireAll k cs =>
    exact (congrArg (Draft.requireAll · k cs) h).trans (s.draft.requireAll_withView v k cs)
  | group k body =>
    show t.draft.adoptGroup k (runAll ⟨t.draft.child, none⟩ body).1.draft = _
    have hgroup := s.draft.adoptGroup_withView v k (s.nested body) (s.nested body).document.view
    rw [Draft.withView_view] at hgroup
    rw [hchild, h]
    exact hgroup
  | exist k negated body =>
    show t.draft.adoptExists k negated (runAll ⟨t.draft.child, none⟩ body).1.draft = _
    rw [hchild, h]
    exact s.draft.adoptQuery_withView v _ fun _ _ => rfl
  | membership k field negated body =>
    show t.draft.adoptMembership k field negated (runAll ⟨t.draft.child, none⟩ body).1.draft = _
    rw [hchild, h]
    exact s.draft.adoptQuery_withView v _ fun _ _ => rfl
  | union all body =>
    show t.draft.adoptUnion all (runAll ⟨t.draft.child, none⟩ body).1.draft = _
    rw [hchild, h]
    exact s.draft.adoptQuery_withView v _ fun _ _ => rfl
  | finish => rw [draft_run_finish, draft_run_finish, h]
  | requireKey data => rw [draft_run_requireKey, draft_run_requireKey, h]
  | normalize => cases hclosing
  | select => cases hclosing
  | find => cases hclosing
  | findByKey data => cases hclosing
  | name n => exact congrArg (fun d : Draft => { d with name := n }) h
  | key k => exact congrArg (fun d : Draft => { d with settings := d.settings.withKey k }) h
  | renderer r => exact congrArg (fun d : Draft => { d with renderer := r }) h
  | bind ps => exact congrArg (Draft.bind · ps) h
  | clearBinds => exact congrArg Draft.clearBinds h
  | _ => exact h

theorem exists_eq_of_isView (h : c.isView = true) : ∃ given, c = .declare (.view given) := by
  unfold isView at h
  split at h
  · exact ⟨_, rfl⟩
  · cases h

theorem viewPairs_of_not_isView (hview : c.isView = false)
    (pairs : Option (List (String × String))) :
    c.viewPairs pairs = if c.isClosing then none else pairs := by
  cases c with
  | declare x => cases x <;> first | rfl | cases hview
  | _ => rfl

/-- The view of a draft is that of the pairs. -/
theorem view_run (s : Session) (c : Call) {pairs : Option (List (String × String))}
    (h : s.draft.document.view = pairs.map .ofList) :
    (c.run s).1.draft.document.view = (c.viewPairs pairs).map .ofList := by
  cases hview : c.isView with
  | true =>
    obtain ⟨given, rfl⟩ := exists_eq_of_isView hview
    rfl
  | false =>
    rw [viewPairs_of_not_isView hview]
    cases hclosing : c.isClosing with
    | true =>
      rw [draft_run_of_isClosing s hclosing]
      rfl
    | false =>
      have hrun := draft_run_withView hview hclosing s.draft.withView_view.symm
      rw [hrun, Draft.view_withView, h]
      rfl

theorem view_runAll (s : Session) (cs : List Call) {pairs : Option (List (String × String))}
    (h : s.draft.document.view = pairs.map .ofList) :
    (runAll s cs).1.draft.document.view = (cs.foldl viewPairs pairs).map .ofList := by
  induction cs generalizing s pairs with
  | nil => exact h
  | cons c cs ih => exact ih (c.run s).1 (view_run s c h)

/-- Of any call but a group there is nothing left or all. -/
theorem draft_runAll_of_unviewed_eq (h : t.draft = s.draft.withView none)
    (hc : c.unviewed = if c.isView then [] else [c]) :
    (runAll t c.unviewed).1.draft = (c.run s).1.draft.withView none := by
  rw [hc]
  cases hview : c.isView with
  | true =>
    obtain ⟨given, rfl⟩ := exists_eq_of_isView hview
    exact h
  | false =>
    show (c.run t).1.draft = _
    cases hclosing : c.isClosing with
    | true =>
      rw [draft_run_of_isClosing t hclosing, draft_run_of_isClosing s hclosing, h]
      rfl
    | false => exact draft_run_withView hview hclosing h

end Call

mutual

/-- What is left of a call without its views leaves the draft without its view. -/
theorem Call.draft_runAll_unviewed {s t : Session} (h : t.draft = s.draft.withView none)
    (c : Call) : (Call.runAll t c.unviewed).1.draft = (c.run s).1.draft.withView none := by
  cases c with
  | group k body =>
    have hbody := Call.draft_runAll_unviewedAll (s := ⟨s.draft.child, none⟩)
      (t := ⟨t.draft.child, none⟩) (by rw [h]; rfl) body
    show t.draft.adoptGroup k (Call.runAll _ _).1.draft = _
    rw [hbody, h]
    exact s.draft.adoptGroup_withView none k _ none
  | _ => exact Call.draft_runAll_of_unviewed_eq h rfl

theorem Call.draft_runAll_unviewedAll {s t : Session} (h : t.draft = s.draft.withView none)
    (cs : List Call) :
    (Call.runAll t (Call.unviewedAll cs)).1.draft = (Call.runAll s cs).1.draft.withView none := by
  cases cs with
  | nil => exact h
  | cons c cs =>
    rw [Call.unviewedAll, Call.runAll_append]
    exact Call.draft_runAll_unviewedAll (Call.draft_runAll_unviewed h c) cs

end

theorem Session.nested_unviewedAll (s : Session) (cs : List Call) :
    s.nested (Call.unviewedAll cs) = (s.nested cs).withView none :=
  Call.draft_runAll_unviewedAll rfl cs

/-- Calls on a new draft leave what they leave without their views, and their own view is that of
the pairs. The views of groups have no effect. -/
theorem Session.nested_eq_withView (s : Session) (cs : List Call) :
    s.nested cs = (s.nested (Call.unviewedAll cs)).withView
      ((cs.foldl Call.viewPairs none).map .ofList) := by
  have hview : (s.nested cs).document.view = (cs.foldl Call.viewPairs none).map .ofList :=
    Call.view_runAll ⟨s.draft.child, none⟩ cs rfl
  rw [s.nested_unviewedAll, ← hview]
  exact (s.nested cs).withView_view.symm

/-! ### Closing -/

namespace Draft

variable {d : Draft}

theorem withTable_withView (d : Draft) (v : Option NameMap) :
    (d.withView v).withTable = d.withTable.map (·.withView v) := by
  have htables : (d.withView v).document.tables = d.document.tables := rfl
  have hname : (d.withView v).name = d.name := rfl
  unfold withTable
  rw [htables, hname]
  split
  · rfl
  · split <;> rfl

theorem withLimit_withView (standard : UInt64) (doc : Document) (v : Option NameMap) :
    withLimit standard (doc.withView v) = (withLimit standard doc).map (·.withView v) := by
  have hpage : (doc.withView v).page = doc.page := rfl
  unfold withLimit
  rw [hpage]
  cases doc.page with
  | none => rfl
  | some page =>
    have hlimit : (doc.withView v).limit = doc.limit := rfl
    dsimp only
    rw [hlimit]
    cases page.toLimit doc.limit standard <;> rfl

/-- The document of a draft with a view is that of the draft without it, seen through the view. -/
theorem finished_withView (hd : d.document.view = none) (v : Option NameMap) :
    (d.withView v).finished = d.finished.map fun plain => withColumns (plain.withView v) := by
  have hfault : (d.withView v).fault = d.fault := rfl
  have hsettings : (d.withView v).settings = d.settings := rfl
  unfold finished
  rw [hfault, hsettings, withTable_withView]
  cases d.fault with
  | some f => rfl
  | none =>
    cases hfirst : d.withTable with
    | error f => rfl
    | ok first =>
      show withLimit d.settings.pageSize (first.withView v) >>= _ =
        Except.map _ (withLimit d.settings.pageSize first >>= _)
      rw [withLimit_withView]
      cases hsecond : withLimit d.settings.pageSize first with
      | error f => rfl
      | ok second =>
        have hview : second.view = none := by
          rw [(withLimit_eq hsecond).1, withTable_eq hfirst]
          exact hd
        have hsame : withColumns second = second := by
          rw [withColumns, hview]
        show Except.ok _ = Except.ok _
        rw [hsame]

/-- Without its view, a draft that can be closed can be closed too. -/
theorem exists_of_finished_withView (hd : d.document.view = none) {v : Option NameMap}
    {doc : Document} (h : (d.withView v).finished = .ok doc) :
    ∃ plain, d.finished = .ok plain ∧ plain.view = none ∧
      doc = withColumns (plain.withView v) := by
  rw [finished_withView hd] at h
  cases hplain : d.finished with
  | error f =>
    rw [hplain] at h
    cases h
  | ok plain =>
    rw [hplain] at h
    have hview : plain.view = none :=
      (congrArg Document.view (closes_of_finished hplain).kept).trans hd
    exact ⟨plain, rfl, hview, (Except.ok.inj h).symm⟩

end Draft

end SqlSelect
