import SqlSelect.Call

/-!
# Closing a draft

* `Call.isClosing`: the calls that close a draft, whatever comes of it;
* `Draft.ResetOf d e`: nothing is declared on `d`, and it stands under the same settings and name,
  is written in the same way and binds the same named parameters as `e`;
* `Draft.Closes d doc`: the document `doc` is what was declared on `d`, with a table, a limit for a
  page, and columns for the names of a view;
* `Session.run_closing`: a closing call leaves nothing behind that a later call could tell from a
  new draft.
-/

namespace SqlSelect

/-! ### Names in conditions -/

namespace Filter

mutual

theorem renameEntry_renameEntry (f g : String → String) :
    ∀ e : Entry, renameEntry f (renameEntry g e) = renameEntry (f ∘ g) e
  | .field name cs => rfl
  | .group bs => by
    rw [renameEntry, renameEntry, renameEntry, renameFields_renameFields f g bs]
  | .raw sql binds => rfl
  | .exist query negated => rfl

theorem renameEntries_renameEntries (f g : String → String) :
    ∀ es : List Entry, renameEntries f (renameEntries g es) = renameEntries (f ∘ g) es
  | [] => rfl
  | e :: es => by
    rw [renameEntries, renameEntries, renameEntries, renameEntry_renameEntry f g e,
      renameEntries_renameEntries f g es]

theorem renameBranch_renameBranch (f g : String → String) :
    ∀ b : Branch, renameBranch f (renameBranch g b) = renameBranch (f ∘ g) b
  | ⟨k, es⟩ => by
    rw [renameBranch, renameBranch, renameBranch, renameEntries_renameEntries f g es]

/-- Renaming twice is renaming once, by both. -/
theorem renameFields_renameFields (f g : String → String) :
    ∀ bs : List Branch, renameFields f (renameFields g bs) = renameFields (f ∘ g) bs
  | [] => rfl
  | b :: bs => by
    rw [renameFields, renameFields, renameFields, renameBranch_renameBranch f g b,
      renameFields_renameFields f g bs]

end

/-- The clause with the names of its fields blotted out. -/
def unnamed (bs : List Branch) : List Branch := renameFields (fun _ => "") bs

/-- Other names change nothing but names. -/
@[simp] theorem unnamed_renameFields (f : String → String) (bs : List Branch) :
    unnamed (renameFields f bs) = unnamed bs :=
  renameFields_renameFields (fun _ => "") f bs

end Filter

/-- The item of the order with the name of its field blotted out. -/
def OrderItem.unnamed : OrderItem → OrderItem
  | .field _ direction => .field "" direction
  | .raw sql => .raw sql

@[simp] theorem OrderItem.unnamed_orderItem (v : NameMap) (x : OrderItem) :
    (View.orderItem v x).unnamed = x.unnamed := by
  cases x <;> rfl

/-! ### What closing does to the document -/

/-- What follows a computation gives a result only if the computation does. -/
theorem exists_of_bind_eq_ok {ε α β : Type} {x : Except ε α} {f : α → Except ε β} {b : β}
    (h : (x >>= f) = .ok b) : ∃ a, x = .ok a ∧ f a = .ok b := by
  cases x with
  | error e => cases h
  | ok a => exact ⟨a, rfl, h⟩

/-- A computation with another behind it fails in the one or in the other. -/
theorem bind_eq_error_iff {ε α β : Type} {x : Except ε α} {f : α → Except ε β} {e : ε} :
    (x >>= f) = .error e ↔ x = .error e ∨ ∃ a, x = .ok a ∧ f a = .error e := by
  cases x with
  | error g =>
    constructor
    · intro h
      cases h
      exact .inl rfl
    · rintro (h | ⟨a, h, -⟩)
      · cases h
        rfl
      · cases h
  | ok a =>
    constructor
    · exact fun h => .inr ⟨a, rfl, h⟩
    · rintro (h | ⟨b, h, hb⟩)
      · cases h
      · cases h
        exact hb

/-- The document without the clauses that closing may change. -/
def Document.kept (d : Document) : Document :=
  { d with tables := [], filter := [], order := [], limit := none, page := none }

/-- The document is what was declared on the draft. -/
structure Draft.Closes (d : Draft) (doc : Document) : Prop where
  kept : doc.kept = d.document.kept
  tables : doc.tables = if d.document.tables = [] then [d.ownTable] else d.document.tables
  page : doc.page = none
  limit_of_none : d.document.page = none → doc.limit = d.document.limit
  limit_of_page : ∀ p, d.document.page = some p →
    ∃ l, p.toLimit d.document.limit d.settings.pageSize = .ok l ∧ doc.limit = some l
  unviewed : d.document.view = none → doc.filter = d.document.filter ∧ doc.order = d.document.order
  viewed : ∀ v, d.document.view = some v →
    doc.filter = Filter.renameFields (View.field v) d.document.filter ∧
      doc.order = d.document.order.map (View.orderItem v)
  filter : Filter.unnamed doc.filter = Filter.unnamed d.document.filter
  order : doc.order.map OrderItem.unnamed = d.document.order.map OrderItem.unnamed

namespace Draft

variable {d : Draft} {doc : Document}

/-- The table is the draft's own if none was declared. -/
theorem withTable_eq (h : d.withTable = .ok doc) :
    doc = { d.document with
      tables := if d.document.tables = [] then [d.ownTable] else d.document.tables } := by
  unfold withTable at h
  by_cases htables : d.document.tables = []
  · rw [if_neg (not_not_intro htables)] at h
    split at h
    · cases h
    · cases h
      rw [if_pos htables]
  · rw [if_pos htables] at h
    cases h
    rw [if_neg htables]
    cases d.document
    rfl

/-- The page is gone, and the limit is the one that it comes to. -/
theorem withLimit_eq {standard : UInt64} {first : Document}
    (h : withLimit standard first = .ok doc) :
    doc = { first with page := none, limit := doc.limit } ∧
      (first.page = none → doc.limit = first.limit) ∧
      ∀ p, first.page = some p →
        ∃ l, p.toLimit first.limit standard = .ok l ∧ doc.limit = some l := by
  unfold withLimit at h
  cases hpage : first.page with
  | none =>
    rw [hpage] at h
    obtain rfl : first = doc := Except.ok.inj h
    refine ⟨?_, fun _ => rfl, fun p hp => absurd hp (by simp)⟩
    rw [← hpage]
    cases first
    rfl
  | some page =>
    rw [hpage] at h
    dsimp only at h
    cases hlimit : page.toLimit first.limit standard with
    | error f =>
      rw [hlimit] at h
      cases h
    | ok l =>
      rw [hlimit] at h
      obtain rfl : { first with page := none, limit := some l } = doc := Except.ok.inj h
      refine ⟨rfl, fun hp => absurd hp (by simp), fun p hp => ⟨l, ?_, rfl⟩⟩
      obtain rfl : page = p := Option.some.inj hp
      exact hlimit

/-- The names are those of the columns, if there is a view. -/
theorem withColumns_eq (first : Document) :
    withColumns first = { first with
      filter := (first.view.map fun v => Filter.renameFields (View.field v) first.filter).getD
        first.filter
      order := (first.view.map fun v => first.order.map (View.orderItem v)).getD first.order } := by
  obtain ⟨⟩ := first
  next view =>
    cases view <;> rfl

/-- A finished draft has no fault, and the document goes through the steps one after the other. -/
theorem steps_of_finished (h : d.finished = .ok doc) :
    d.fault = none ∧ ∃ first second, d.withTable = .ok first ∧
      withLimit d.settings.pageSize first = .ok second ∧ withColumns second = doc := by
  unfold finished at h
  cases hfault : d.fault with
  | some f =>
    rw [hfault] at h
    cases h
  | none =>
    rw [hfault] at h
    obtain ⟨first, htable, hrest⟩ := exists_of_bind_eq_ok h
    obtain ⟨second, hlimit, hcolumns⟩ := exists_of_bind_eq_ok hrest
    exact ⟨rfl, first, second, htable, hlimit, Except.ok.inj hcolumns⟩

/-- A finished document is what was declared. -/
theorem closes_of_finished (h : d.finished = .ok doc) : d.Closes doc := by
  obtain ⟨-, first, second, htable, hlimit, rfl⟩ := steps_of_finished h
  obtain ⟨hsecond, hnone, hpage⟩ := withLimit_eq hlimit
  rw [withColumns_eq]
  have hview : second.view = d.document.view := by rw [hsecond, withTable_eq htable]
  have hfilter : second.filter = d.document.filter := by rw [hsecond, withTable_eq htable]
  have horder : second.order = d.document.order := by rw [hsecond, withTable_eq htable]
  have hfirst : first.page = d.document.page ∧ first.limit = d.document.limit := by
    rw [withTable_eq htable]
    exact ⟨rfl, rfl⟩
  rw [hfirst.1, hfirst.2] at hnone hpage
  constructor
  case kept =>
    rw [hsecond, withTable_eq htable]
    rfl
  case tables => rw [hsecond, withTable_eq htable]
  case page => rw [hsecond]
  case limit_of_none => exact hnone
  case limit_of_page => exact hpage
  case unviewed =>
    intro hv
    rw [hview, hv]
    exact ⟨hfilter, horder⟩
  case viewed =>
    intro v hv
    rw [hview, hv, hfilter, horder]
    exact ⟨rfl, rfl⟩
  case filter =>
    rw [hview, hfilter]
    cases d.document.view with
    | none => rfl
    | some v => exact Filter.unnamed_renameFields _ _
  case order =>
    rw [hview, horder]
    cases d.document.view with
    | none => rfl
    | some v => simp

/-- A document that closing gives is a finished one. -/
theorem finished_of_normalize (h : d.normalize.1 = .ok doc) : d.finished = .ok doc := by
  have hmap : d.finished.mapError Error.invalid = .ok doc := h
  cases hfinished : d.finished with
  | error f =>
    rw [hfinished] at hmap
    cases hmap
  | ok first =>
    rw [hfinished] at hmap
    cases hmap
    rfl

/-- A statement is that of a finished document. -/
theorem exists_of_select {st : Statement} (h : d.select.1 = .ok st) :
    ∃ doc, d.finished = .ok doc ∧ st = d.build doc := by
  simp only [select, normalize] at h
  cases hdoc : d.finished with
  | error f =>
    rw [hdoc] at h
    cases h
  | ok doc =>
    rw [hdoc] at h
    cases h
    exact ⟨doc, rfl, rfl⟩

theorem select_of_finished (h : d.finished = .ok doc) : d.select.1 = .ok (d.build doc) := by
  rw [select, normalize, h]
  rfl

theorem sql_build (d : Draft) (doc : Document) :
    (d.build doc).sql = (doc.render d.renderer).sql := by
  simp [build, Renderer.select]

end Draft

/-! ### What closing does to the draft -/

/-- Nothing is declared on the draft; all else is as it is on another draft. -/
structure Draft.ResetOf (d e : Draft) : Prop where
  document : d.document = {}
  ledger : d.ledger = []
  fault : d.fault = none
  name : d.name = e.name
  settings : d.settings = e.settings
  renderer : d.renderer = e.renderer
  binds : d.binds = e.binds

theorem Draft.resetOf_reset (d : Draft) : d.reset.ResetOf d := ⟨rfl, rfl, rfl, rfl, rfl, rfl, rfl⟩

/-- The calls that give a new draft what closing leaves to a draft. -/
def Draft.setUp (d : Draft) : List Call := [.renderer d.renderer, .name d.name, .bind d.binds]

/-- The session with a new draft that is set up as another. -/
def Session.renewed (s : Session) (d : Draft) : Session :=
  (Call.runAll ⟨.new d.settings, s.saved⟩ d.setUp).1

/-- A draft on which nothing is declared is a new draft, set up. -/
theorem Session.eq_renewed {s : Session} {d : Draft} (h : s.draft.ResetOf d) : s = s.renewed d := by
  obtain ⟨⟨settings, renderer, name, document, ledger, binds, fault⟩, saved⟩ := s
  obtain ⟨rfl, rfl, rfl, rfl, rfl, rfl, rfl⟩ := h
  rfl

/-- Does the call close the draft? -/
def Call.isClosing : Call → Bool
  | .normalize => true
  | .select => true
  | .find => true
  | .findByKey _ => true
  | _ => false

/-- The draft is reset whether there is a document or not. -/
theorem Call.resetOf_run (s : Session) {c : Call} (h : c.isClosing = true) :
    (c.run s).1.draft.ResetOf s.draft := by
  cases c with
  | normalize =>
    have hdraft : (Call.normalize.run s).1.draft = s.draft.reset := by
      show ((s.withDraft s.draft.reset).save s.draft.normalize.1).draft = _
      cases s.draft.normalize.1 <;> rfl
    rw [hdraft]
    exact s.draft.resetOf_reset
  | select => exact s.draft.resetOf_reset
  | find => exact s.draft.resetOf_reset
  | findByKey data => exact s.draft.resetOf_reset
  | _ => exact absurd h (by simp [isClosing])

/-- Closing is a complete reset. Whatever comes of the call, nothing is left of the declarations,
and whatever is called from then on gives what it would give on a new draft that is set up in the
same way. The document, if there is one, is what was declared. -/
theorem Session.run_closing (s : Session) {c : Call} (h : c.isClosing = true) :
    (c.run s).1.draft.ResetOf s.draft ∧
      (∀ cs, Call.runAll (c.run s).1 cs = Call.runAll ((c.run s).1.renewed s.draft) cs) ∧
      ∀ doc, s.draft.normalize.1 = .ok doc → s.draft.Closes doc := by
  have hreset := Call.resetOf_run s h
  refine ⟨hreset, fun cs => ?_, fun doc hdoc => ?_⟩
  · rw [← Session.eq_renewed hreset]
  · refine Draft.closes_of_finished ?_
    have hmap : s.draft.finished.mapError Error.invalid = .ok doc := hdoc
    cases hfinished : s.draft.finished with
    | error f =>
      rw [hfinished] at hmap
      cases hmap
    | ok first =>
      rw [hfinished] at hmap
      cases hmap
      rfl

/-- A page of a draft under a key of two columns, with named parameters and a view. -/
def Session.keySample : Session :=
  (Call.runAll ⟨.new { key := .composite ["a", "b"] }, none⟩
    [.name "User", .bind [.named "n" (.int 1)], .declare (.view [("x", "c")]),
      .declare (.page ⟨2, 5⟩), .require .or (.is "x" (.value (.int 3)))]).1

/-- A search for half of a key leaves nothing behind but the name and the parameters. The document
would have been one with the column behind the name in the view. -/
theorem Session.run_closing_keySample :
    (Call.findByKey (.map [("a", .int 1)])).isClosing = true ∧
      ((Call.findByKey (.map [("a", .int 1)])).run keySample).2.1 =
        .statement (.error (.missingKeyColumn "b")) ∧
      ((Call.findByKey (.map [("a", .int 1)])).run keySample).1.draft.ResetOf keySample.draft ∧
      (∀ cs, Call.runAll ((Call.findByKey (.map [("a", .int 1)])).run keySample).1 cs =
        Call.runAll (((Call.findByKey (.map [("a", .int 1)])).run keySample).1.renewed
          keySample.draft) cs) ∧
      ∃ doc, keySample.draft.normalize.1 = .ok doc ∧ keySample.draft.Closes doc := by
  obtain ⟨hreset, hlater, hcloses⟩ :=
    Session.run_closing keySample (c := .findByKey (.map [("a", .int 1)])) rfl
  have hdoc : keySample.draft.normalize.1 = .ok
      { tables := ["user"]
        view := some (.ofList [("x", "c")])
        filter := [⟨.or, [.field "c" [.compare .eq (.int 3)]]⟩]
        limit := some ⟨some 5, 5⟩ } := by rfl
  exact ⟨rfl, rfl, hreset, hlater, _, hdoc, hcloses _ hdoc⟩

end SqlSelect
