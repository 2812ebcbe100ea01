import SqlSelect.Proofs.Validation.Criteria

/-!
# Programs of conditions

* `Call.IsWhere`: the calls that set tables or demand something of the rows, nested as deep as one
  likes, where the names of tables and fields are inert;
* `Draft.IsWhere`: a draft on which nothing else has been done;
* `Call.areChecked_accepted`: all that such calls declare is checked;
* `Settings.count_select`: how far the marks of the statement and its parameters can differ.
-/

namespace SqlSelect

open Placeholder

/-! ### Tables -/

namespace TableSpec

/-- The texts of a list of tables. -/
def texts : TableSpec → List String
  | text s => [s]
  | list tables => tables.flatMap fun (name, short) => name :: short.toList

variable {p : Char → Bool}

theorem isOver_entry {item : String} (h : Text.IsOver p item) :
    Text.IsOver p (entry item).1 ∧ ∀ a ∈ (entry item).2, Text.IsOver p a := by
  have haliased : ∀ {n a : String}, Name.aliased? item = some (n, a) →
      Text.IsOver p n ∧ Text.IsOver p a := by
    intro n a hna
    unfold Name.aliased? at hna
    split at hna
    · next u v hw =>
      cases hna
      exact ⟨h.of_mem_words (by simp [hw]), h.of_mem_words (by simp [hw])⟩
    · next u k v hw =>
      split at hna
      · cases hna
        exact ⟨h.of_mem_words (by simp [hw]), h.of_mem_words (by simp [hw])⟩
      · cases hna
    · cases hna
  unfold entry
  split
  · next n a hna =>
    refine ⟨(haliased hna).1, fun b hb => ?_⟩
    cases hb
    exact (haliased hna).2
  · exact ⟨h, fun b hb => absurd hb (Option.not_mem_none b)⟩

/-- The tables of a specification, and their aliases, are over its alphabet. -/
theorem isOver_entries {spec : TableSpec} (h : ∀ t ∈ spec.texts, Text.IsOver p t) :
    ∀ e ∈ spec.entries, Text.IsOver p e.1 ∧ ∀ a ∈ e.2, Text.IsOver p a := by
  intro e he
  cases spec with
  | text s =>
    have hs : Text.IsOver p (Text.trim s) := (h s List.mem_cons_self).trim
    simp only [entries] at he
    split at he
    · rw [List.mem_singleton.1 he]
      exact ⟨hs, fun a ha => absurd ha (Option.not_mem_none a)⟩
    · obtain ⟨item, hitem, rfl⟩ := List.mem_map.1 he
      exact isOver_entry (hs.of_mem_items hitem)
  | list tables =>
    obtain ⟨name, short⟩ := e
    have hmem : ∀ t ∈ name :: short.toList, Text.IsOver p t := fun t ht =>
      h t (List.mem_flatMap.2 ⟨_, he, ht⟩)
    exact ⟨hmem name List.mem_cons_self,
      fun a ha => hmem a (List.mem_cons_of_mem _ (Option.mem_toList.2 ha))⟩

end TableSpec

namespace NameMap

theorem mem_values_insert {m : NameMap} {key value v : String}
    (hv : v ∈ (m.insert key value).entries.map Prod.snd) :
    v = value ∨ v ∈ m.entries.map Prod.snd := by
  obtain ⟨entries⟩ := m
  simp only [insert] at hv ⊢
  induction entries with
  | nil => exact .inl (by simpa [insertEntry] using hv)
  | cons e es ih =>
    obtain ⟨k, w⟩ := e
    rw [insertEntry] at hv
    split at hv
    · rcases List.mem_cons.1 hv with rfl | hv
      · exact .inl rfl
      · exact .inr (List.mem_cons_of_mem _ hv)
    · rcases List.mem_cons.1 hv with rfl | hv
      · exact .inr List.mem_cons_self
      · exact (ih hv).imp id (List.mem_cons_of_mem _)

end NameMap

namespace Document

/-- The document without its tables and their aliases, and without its conditions. -/
def besides (d : Document) : Document := { d with tables := [], aliases := {}, filter := [] }

/-- The texts of the tables and their aliases. -/
def tableTexts (d : Document) : List String := d.tables ++ d.aliases.entries.map Prod.snd

/-- A document that has nothing but tables and conditions says nothing in its other clauses. -/
theorem mem_clauseTexts {d : Document} (h : d.besides = {}) {t : String} :
    t ∈ d.clauseTexts ↔ t ∈ d.tableTexts := by
  have hfields : d.fields = .all := congrArg Document.fields h
  have hjoins : d.joins = [] := congrArg Document.joins h
  have hgroup : d.group = none := congrArg Document.group h
  have hhaving : d.having = none := congrArg Document.having h
  have horder : d.order = [] := congrArg Document.order h
  have hlock : d.lock = none := congrArg Document.lock h
  have hcomment : d.comment = none := congrArg Document.comment h
  have hforced : d.forced = [] := congrArg Document.forced h
  simp [clauseTexts, tableTexts, FieldList.texts, hfields, hjoins, hgroup, hhaving, horder, hlock,
    hcomment, hforced]

theorem isOver_addAliases {p : Char → Bool} {pre : String} {pairs : List (String × String)}
    {d : Document} (hpairs : ∀ e ∈ pairs, Text.IsOver p e.2)
    (hd : ∀ t ∈ d.tableTexts, Text.IsOver p t) :
    (∀ t ∈ (d.addAliases pre pairs).tableTexts, Text.IsOver p t) ∧
      (d.addAliases pre pairs).besides = d.besides := by
  unfold addAliases
  induction pairs generalizing d with
  | nil => exact ⟨hd, rfl⟩
  | cons e pairs ih =>
    obtain ⟨he, hpairs⟩ := List.forall_mem_cons.1 hpairs
    have hstep : ∀ t ∈ (d.addAlias pre e.1 e.2).tableTexts, Text.IsOver p t := by
      intro t ht
      rcases List.mem_append.1 ht with ht | ht
      · exact hd t (List.mem_append_left _ ht)
      · rcases NameMap.mem_values_insert ht with rfl | ht
        · exact he
        · exact hd t (List.mem_append_right _ ht)
    exact ih hpairs hstep

/-- Setting tables of inert names. -/
theorem isOver_setTables {p : Char → Bool} {pre : String} {spec : TableSpec} {d : Document}
    (hspec : ∀ t ∈ spec.texts, Text.IsOver p t) (hd : ∀ t ∈ d.tableTexts, Text.IsOver p t) :
    (∀ t ∈ (d.setTables pre spec.entries).tableTexts, Text.IsOver p t) ∧
      (d.setTables pre spec.entries).besides = d.besides := by
  have hentries := TableSpec.isOver_entries hspec
  -- only the tables with an alias are put into the map
  have hpairs : ∀ e ∈ spec.entries.filterMap fun (table, short) => short.map (table, ·),
      Text.IsOver p e.2 := by
    intro e he
    obtain ⟨⟨n, a⟩, hna, hmap⟩ := List.mem_filterMap.1 he
    obtain ⟨b, rfl, rfl⟩ := Option.map_eq_some_iff.1 hmap
    exact (hentries _ hna).2 b rfl
  obtain ⟨htexts, hbesides⟩ : (∀ t ∈ (d.addAliases pre _).tableTexts, Text.IsOver p t) ∧
      (d.addAliases pre _).besides = d.besides := isOver_addAliases hpairs hd
  refine ⟨fun t ht => ?_, hbesides⟩
  rcases List.mem_append.1 ht with ht | ht
  · obtain ⟨e, he, rfl⟩ := List.mem_map.1 (List.mem_eraseDups.1 ht)
    exact (hentries e he).1
  · exact htexts t (List.mem_append_right _ ht)

/-- The leaves of a document that has nothing but tables and conditions. -/
theorem leaves_of_besides {d : Document} (h : d.besides = {}) :
    d.leaves = d.clauseTexts.map .text ++ Branch.leavesEach d.filter := by
  have hsoft : d.softDelete = none := congrArg Document.softDelete h
  have hunions : d.unions = [] := congrArg Document.unions h
  rw [leaves_eq, hsoft, hunions]
  simp [SoftDelete.leavesOption, UnionItem.leavesEach]

end Document

/-! ### Programs -/

mutual

/-- Does the call set tables or demand something of the rows, with inert names? -/
def Call.IsWhere : Call → Prop
  | .name n => Text.IsOver Name.isPlainChar n
  | .declare (.tables spec) => ∀ t ∈ spec.texts, Text.IsOver isInert t
  | .require _ c => c.IsWhere
  | .requireAll _ cs => ∀ c ∈ cs, c.IsWhere
  | .group _ body => Call.AreWhere body
  | .exist _ _ body => Call.AreWhere body
  | .membership _ field _ body => Text.IsOver isInert field ∧ Call.AreWhere body
  | _ => False

/-- Is each of the calls of this kind? -/
def Call.AreWhere : List Call → Prop
  | [] => True
  | c :: cs => c.IsWhere ∧ Call.AreWhere cs

end

namespace Draft

/-- A draft on which nothing but such calls have been made. -/
structure IsWhere (d : Draft) : Prop where
  besides : d.document.besides = {}
  tables : ∀ t ∈ d.document.tableTexts, Text.IsOver isInert t
  name : Text.IsOver Name.isPlainChar d.name
  tablePrefix : Text.IsOver isInert d.settings.tablePrefix
  renderer : d.renderer = d.settings.renderer
  binds : d.binds = []

variable {d e : Draft} {h : List Accepted} {doc : Document}

/-- Conditions, the ledger and faults do not matter. -/
theorem IsWhere.congr (hd : d.IsWhere) (hbesides : e.document.besides = d.document.besides)
    (htables : e.document.tableTexts = d.document.tableTexts) (hname : e.name = d.name)
    (hsettings : e.settings = d.settings) (hrenderer : e.renderer = d.renderer)
    (hbinds : e.binds = d.binds) : e.IsWhere where
  besides := hbesides.trans hd.besides
  tables := htables ▸ hd.tables
  name := hname ▸ hd.name
  tablePrefix := hsettings ▸ hd.tablePrefix
  renderer := by rw [hrenderer, hd.renderer, hsettings]
  binds := hbinds.trans hd.binds

theorem IsWhere.child (hd : d.IsWhere) : d.child.IsWhere where
  besides := rfl
  tables := fun _ ht => absurd ht List.not_mem_nil
  name := Text.isOver_empty
  tablePrefix := hd.tablePrefix
  renderer := hd.renderer
  binds := rfl

theorem IsWhere.bind (hd : d.IsWhere) (he : e.IsWhere) : (d.bind e.binds).IsWhere :=
  hd.congr rfl rfl rfl rfl rfl (by rw [he.binds]; exact List.append_nil _)

theorem IsWhere.recordFault (hd : d.IsWhere) (f : Fault) : (d.recordFault f).IsWhere :=
  hd.congr rfl rfl rfl rfl rfl rfl

theorem IsWhere.pushEntry (hd : d.IsWhere) (k : Connective) (e : Entry) :
    (d.pushEntry k e).IsWhere := hd.congr rfl rfl rfl rfl rfl rfl

theorem IsWhere.addCondition (hd : d.IsWhere) (k : Connective) (field : String) (c : Condition) :
    (d.addCondition k field c).IsWhere := hd.congr rfl rfl rfl rfl rfl rfl

theorem IsWhere.require (hd : d.IsWhere) (k : Connective) (c : Criterion) :
    (d.require k c).IsWhere := by
  unfold Draft.require
  cases c.read with
  | error f => exact hd.recordFault f
  | ok x =>
    cases x with
    | onField field c => exact hd.addCondition k field c
    | raw sql binds => exact hd.pushEntry k _

theorem IsWhere.requireAll (hd : d.IsWhere) (k : Connective) (cs : List Criterion) :
    (d.requireAll k cs).IsWhere := by
  unfold Draft.requireAll
  induction cs generalizing d with
  | nil => exact hd
  | cons c cs ih => exact ih (hd.require k c)

theorem IsWhere.adoptGroup (hd : d.IsWhere) (he : e.IsWhere) (k : Connective) :
    (d.adoptGroup k e).IsWhere := by
  have hfault : ((e.fault.map d.recordFault).getD d).IsWhere := by
    cases e.fault with
    | none => exact hd
    | some f => exact hd.recordFault f
  unfold Draft.adoptGroup
  dsimp only
  split
  · exact hfault.bind he
  · exact (hfault.bind he).pushEntry k _

theorem IsWhere.adoptQuery (hd : d.IsWhere) (he : e.IsWhere) {place : Draft → Document → Draft}
    (hplace : ∀ d doc, IsWhere d → (place d doc).IsWhere) : (d.adoptQuery e place).IsWhere := by
  unfold Draft.adoptQuery
  cases e.finished with
  | ok doc => exact hplace _ doc (hd.bind he)
  | error f => exact (hd.bind he).recordFault _

theorem IsWhere.setTables (hd : d.IsWhere) {spec : TableSpec}
    (hspec : ∀ t ∈ spec.texts, Text.IsOver isInert t) : (d.declare (.tables spec)).IsWhere := by
  obtain ⟨htables, hbesides⟩ : (∀ t ∈ (d.document.setTables d.settings.tablePrefix
      spec.entries).tableTexts, Text.IsOver isInert t) ∧
      (d.document.setTables d.settings.tablePrefix spec.entries).besides = d.document.besides :=
    Document.isOver_setTables hspec hd.tables
  exact ⟨hbesides.trans hd.besides, htables, hd.name, hd.tablePrefix, hd.renderer, hd.binds⟩

/-- Without a page and a view, finishing a draft does nothing but give it a table. -/
theorem withTable_of_finished (hpage : d.document.page = none) (hview : d.document.view = none)
    (h : d.finished = .ok doc) : d.withTable = .ok doc := by
  obtain ⟨-, first, second, htable, hlimit, rfl⟩ := steps_of_finished h
  have hpage₁ : first.page = none := by rw [withTable_eq htable, hpage]
  have hview₁ : first.view = none := by rw [withTable_eq htable, hview]
  have hsame : second = first := by
    rw [withLimit, hpage₁] at hlimit
    exact (Except.ok.inj hlimit).symm
  rw [hsame, withColumns, hview₁]
  exact htable

/-- The finished document has nothing but tables and the conditions of the draft. -/
theorem IsWhere.of_finished (hd : d.IsWhere) (hdoc : d.finished = .ok doc) :
    doc.filter = d.document.filter ∧ doc.besides = {} ∧
      ∀ t ∈ doc.tableTexts, Text.IsOver isInert t := by
  have hown : Text.IsOver isInert d.ownTable :=
    Text.isOver_append.2 ⟨hd.tablePrefix,
      (Text.isOver_snakeCase hd.name).mono fun _ => isInert_of_isPlainChar⟩
  have hpage : d.document.page = none := congrArg Document.page hd.besides
  have hview : d.document.view = none := congrArg Document.view hd.besides
  rw [withTable_eq (withTable_of_finished hpage hview hdoc)]
  refine ⟨rfl, hd.besides, fun t ht => ?_⟩
  rcases List.mem_append.1 ht with ht | ht
  · by_cases htables : d.document.tables = []
    · rw [if_pos htables] at ht
      rw [List.mem_singleton.1 ht]
      exact hown
    · rw [if_neg htables] at ht
      exact hd.tables t (List.mem_append_left _ ht)
  · exact hd.tables t (List.mem_append_right _ ht)

/-- The leaves of a finished document are checked if the declarations are. -/
theorem IsWhere.leaves_finished (hd : d.IsWhere) (ht : d.Tracks h) (hh : Accepted.AreChecked h)
    (hdoc : d.finished = .ok doc) : ∀ l ∈ doc.leaves, l.IsChecked := by
  obtain ⟨hfilter, hbesides, htables⟩ := hd.of_finished hdoc
  rw [Document.leaves_of_besides hbesides, List.forall_mem_append]
  constructor
  · intro l hl
    obtain ⟨t, htext, rfl⟩ := List.mem_map.1 hl
    exact htables t ((Document.mem_clauseTexts hbesides).1 htext)
  · rw [hfilter, ht.filter]
    exact hh.leaves_ofAccepted

end Draft

mutual

/-- What is not a table and not a condition stays untouched. -/
theorem Call.isWhere_run (s : Session) (hs : s.draft.IsWhere) :
    ∀ c : Call, c.IsWhere → (c.run s).1.draft.IsWhere
  | .name _, hc => ⟨hs.besides, hs.tables, hc, hs.tablePrefix, hs.renderer, hs.binds⟩
  | .declare (.tables _), hc => hs.setTables hc
  | .require k c, _ => hs.require k c
  | .requireAll k cs, _ => hs.requireAll k cs
  | .group k body, hc => hs.adoptGroup (Call.isWhere_runAll _ hs.child body hc) k
  | .exist k negated body, hc =>
    hs.adoptQuery (Call.isWhere_runAll _ hs.child body hc) fun _ doc hd =>
      hd.pushEntry k (.exist doc negated)
  | .membership k field negated body, hc =>
    hs.adoptQuery (Call.isWhere_runAll _ hs.child body hc.2) fun _ doc hd =>
      hd.addCondition k (Text.trim field) (.inQuery doc negated)

theorem Call.isWhere_runAll (s : Session) (hs : s.draft.IsWhere) :
    ∀ cs : List Call, Call.AreWhere cs → (Call.runAll s cs).1.draft.IsWhere
  | [], _ => hs
  | c :: cs, hcs => Call.isWhere_runAll _ (Call.isWhere_run s hs c hcs.1) cs hcs.2

end

mutual

/-- All that is declared is checked. -/
theorem Call.areChecked_accepted (s : Session) (h : List Accepted) (hs : s.draft.IsWhere)
    (hh : Accepted.AreChecked h) : ∀ c : Call, c.IsWhere → Accepted.AreChecked (c.accepted s h)
  | .name _, _ => hh
  | .declare (.tables _), _ => hh
  | .require k c, hc => hh.append (.ofCriterion hc)
  | .requireAll k cs, hc => by
    refine hh.append fun a ha => ?_
    obtain ⟨c, hmem, hac⟩ := List.mem_flatMap.1 ha
    exact Accepted.AreChecked.ofCriterion (hc c hmem) a hac
  | .group k body, hc =>
    hh.append (.ofGroup (Call.areChecked_acceptedAll _ [] hs.child .nil body hc))
  | .exist k negated body, hc => by
    have hinner := Call.areChecked_acceptedAll ⟨s.draft.child, none⟩ [] hs.child .nil body hc
    have htracks := Call.tracks_runAll ⟨s.draft.child, none⟩ [] (Draft.tracks_of_empty rfl rfl) body
    refine hh.append (.ofQuery fun doc hdoc => ?_)
    exact (Call.isWhere_runAll _ hs.child body hc).leaves_finished htracks hinner hdoc
  | .membership k field negated body, hc => by
    have hinner := Call.areChecked_acceptedAll ⟨s.draft.child, none⟩ [] hs.child .nil body hc.2
    have htracks := Call.tracks_runAll ⟨s.draft.child, none⟩ [] (Draft.tracks_of_empty rfl rfl) body
    refine hh.append (.ofQuery fun doc hdoc => List.forall_mem_cons.2 ⟨hc.1.trim, ?_⟩)
    exact (Call.isWhere_runAll _ hs.child body hc.2).leaves_finished htracks hinner hdoc

theorem Call.areChecked_acceptedAll (s : Session) (h : List Accepted) (hs : s.draft.IsWhere)
    (hh : Accepted.AreChecked h) :
    ∀ cs : List Call, Call.AreWhere cs → Accepted.AreChecked (Call.acceptedAll s h cs)
  | [], _ => hh
  | c :: cs, hcs =>
    Call.areChecked_acceptedAll _ _ (Call.isWhere_run s hs c hcs.1)
      (Call.areChecked_accepted s h hs hh c hcs.1) cs hcs.2

end

/-! ### The marks and the parameters of a statement -/

/-- The statement of tables and conditions alone. -/
theorem Document.sql_render_of_besides {d : Document} (h : d.besides = {}) (r : Renderer) :
    (d.render r).sql =
      "SELECT * FROM " ++ (d.clauseText r .tables ++ (d.renderClause r .filter).sql) := by
  have hfields : d.fields = .all := congrArg Document.fields h
  have hdistinct : d.distinct = false := congrArg Document.distinct h
  have hjoins : d.joins = [] := congrArg Document.joins h
  have hgroup : d.group = none := congrArg Document.group h
  have hhaving : d.having = none := congrArg Document.having h
  have hunions : d.unions = [] := congrArg Document.unions h
  have horder : d.order = [] := congrArg Document.order h
  have hlimit : d.limit = none := congrArg Document.limit h
  have hlock : d.lock = none := congrArg Document.lock h
  have hcomment : d.comment = none := congrArg Document.comment h
  have hforced : d.forced = [] := congrArg Document.forced h
  rw [render_eq]
  simp only [clauseText, renderClause, Scope.fields, UnionItem.renderAll, hfields, hdistinct,
    hjoins, hgroup, hhaving, hunions, horder, hlimit, hlock, hcomment, hforced]
  simp [Piece.sql, ← String.append_assoc]

/-- The draft that a program leaves. -/
def Settings.draftAfter (settings : Settings) (cs : List Call) : Draft :=
  (Call.runAll ⟨.new settings, none⟩ cs).1.draft

theorem Settings.dialect_renderer (settings : Settings) :
    settings.renderer.dialect = .generic ∨ settings.renderer.dialect = .mysql := by
  show settings.dialect.dialect = .generic ∨ settings.dialect.dialect = .mysql
  cases settings.dialect
  · exact .inl rfl
  · exact .inr rfl

theorem Settings.isInert_renderer {settings : Settings}
    (h : Text.IsOver isInert settings.tablePrefix) : settings.renderer.IsInert :=
  Renderer.isInert_of_dialect settings.dialect_renderer h

theorem Draft.isWhere_new {settings : Settings} (h : Text.IsOver isInert settings.tablePrefix) :
    (Draft.new settings).IsWhere where
  besides := rfl
  tables := fun _ ht => absurd ht List.not_mem_nil
  name := Text.isOver_empty
  tablePrefix := h
  renderer := rfl
  binds := rfl

namespace Draft

variable {d : Draft} {doc : Document}

theorem params_build (hb : d.binds = []) (doc : Document) :
    (d.build doc).params = (doc.render d.renderer).params := by
  simp [build, Renderer.select, hb]

end Draft

/-- If the draft can be finished, the marks of its statement are the parameters without a name and
the marks of the raw operands, provided that no raw SQL leaves quoted text open. -/
theorem Settings.count_select {settings : Settings}
    (hpre : Text.IsOver isInert settings.tablePrefix) {cs : List Call} (hcs : Call.AreWhere cs)
    {doc : Document} (hdoc : (settings.draftAfter cs).finished = .ok doc)
    (hclosed : ∀ l ∈ doc.leaves, l.IsClosed) :
    ∃ st, (settings.draftAfter cs).select.1 = .ok st ∧
      count st.sql =
        Params.positionalCount st.params + (doc.leaves.map Leaf.unboundMarks).sum := by
  have hnew := Draft.isWhere_new hpre
  have hd : (settings.draftAfter cs).IsWhere :=
    Call.isWhere_runAll ⟨.new settings, none⟩ hnew cs hcs
  have hh := Call.areChecked_acceptedAll ⟨.new settings, none⟩ [] hnew .nil cs hcs
  have htracks := ((Reached.new settings).runAll cs).tracks
  have hchecked := hd.leaves_finished htracks hh hdoc
  have hr : (settings.draftAfter cs).renderer.IsInert := by
    rw [hd.renderer]
    exact Settings.isInert_renderer hd.tablePrefix
  -- the texts among the leaves are inert, and raw SQL in them matches its binds
  have hwrites := Document.writes_render hr fun t ht => hchecked _ ht
  have hbound : ∀ l ∈ Leaf.bound doc.leaves, l ∈ doc.leaves := fun l hl => (List.mem_filter.1 hl).1
  have hsum : ((Leaf.bound doc.leaves).map Leaf.unboundMarks).sum =
      (doc.leaves.map Leaf.unboundMarks).sum := Leaf.sum_unboundMarks_bound _
  refine ⟨_, Draft.select_of_finished hdoc, ?_⟩
  rw [Draft.sql_build, Draft.params_build hd.binds, ← hsum]
  exact hwrites.count_eq_add (fun l hl => hclosed l (hbound l hl))
    fun l hl => hchecked l (hbound l hl)

/-- Raw SQL with one more condition behind it. -/
def Call.behindRaw (sql : String) (binds : List Param) : List Call :=
  [.declare (.tables (.text "t")), .require .and (.raw sql binds),
    .require .and (.is "b" (.value (.int 1)))]

/-- The document of the calls above. -/
def Document.behindRaw (sql : String) (binds : List Param) : Document :=
  { tables := ["t"]
    filter := [⟨.and, [.raw sql binds, .field "b" [.compare .eq (.int 1)]]⟩] }

variable {settings : Settings} {sql : String} {binds : List Param}

namespace Draft

theorem after_behindRaw (h : checkBinds sql binds = .ok ()) :
    settings.draftAfter (Call.behindRaw sql binds) =
      (((Draft.new settings).declare (.tables (.text "t"))).pushEntry .and
        (.raw sql binds)).addCondition .and "b" (.compare .eq (.int 1)) := by
  have hread : (Criterion.raw sql binds).read = .ok (.raw sql binds) := by
    simp [Criterion.read, Demand.ofRaw, h, Except.map]
  have hraw : ∀ d : Draft, d.require .and (.raw sql binds) = d.pushEntry .and (.raw sql binds) := by
    intro d
    rw [Draft.require, hread]
    rfl
  have hb : ∀ d : Draft, d.require .and (.is "b" (.value (.int 1))) =
      d.addCondition .and "b" (.compare .eq (.int 1)) := fun d => rfl
  simp only [Settings.draftAfter, Call.behindRaw, Call.runAll, Call.run, Session.withDraft, hraw,
    hb]

theorem finished_behindRaw (h : checkBinds sql binds = .ok ()) :
    (settings.draftAfter (Call.behindRaw sql binds)).finished =
      .ok (Document.behindRaw sql binds) := by
  rw [after_behindRaw h]
  rfl

theorem renderer_behindRaw (h : checkBinds sql binds = .ok ()) :
    (settings.draftAfter (Call.behindRaw sql binds)).renderer = settings.renderer := by
  rw [after_behindRaw h]
  rfl

theorem binds_behindRaw (h : checkBinds sql binds = .ok ()) :
    (settings.draftAfter (Call.behindRaw sql binds)).binds = [] := by
  rw [after_behindRaw h]
  rfl

end Draft

theorem Document.sql_behindRaw (r : Renderer) :
    ((Document.behindRaw sql binds).render r).sql =
      "SELECT * FROM " ++ (r.dialect.quote "t" ++ (" WHERE " ++ ("(" ++
        (sql ++ (")" ++ (" AND " ++ (r.dialect.quote "b" ++ " = ?"))))))) := by
  have hkey : Scope.key ⟨r, {}⟩ "b" = r.dialect.quote "b" :=
    Scope.key_eq_quote rfl (by decide)
  have hfan : Name.fanOut? "b" = none := by decide
  have htables : (Document.behindRaw sql binds).clauseText r .tables = r.dialect.quote "t" := by
    have hexpand : Scope.expand ⟨r, {}⟩ "t" = "t" := TableName.expand_of_not_infix _ (by decide)
    have hname : Scope.isOpaqueTable "t" = false := by decide
    show Text.join "," [Scope.table ⟨r, {}⟩ "t"] = r.dialect.quote "t"
    simp [Scope.table, hexpand, hname, Scope.quote]
  have hwhere : ((Document.behindRaw sql binds).renderClause r .filter).sql =
      " WHERE " ++ ("(" ++ (sql ++ (")" ++ (" AND " ++ (r.dialect.quote "b" ++ " = ?"))))) := by
    simp only [Document.behindRaw, Document.renderClause, Document.renderFilter, Document.scope,
      Branch.renderEach, Branch.render, Entry.renderEach, Entry.render, renderField, hfan, hkey,
      Condition.renderEach, Condition.render, Comparison.render, Fragment.conjoined, renderBesides,
      Option.map_none]
    simp [Fragment.visible, Fragment.isEmpty, Fragment.enclosed, Fragment.within, Fragment.join,
      Junction.renderAll, Junction.renderNonempty, Junction.render, Junction.separator, renderWhere,
      Piece.sql, Comparison.sql, Connective.keyword, String.append_assoc]
  rw [Document.sql_render_of_besides rfl, htables, hwhere]

/-- A fragment that leaves quoted text open hides the marks behind it. -/
theorem Settings.count_select_of_not_isClosed (hpre : Text.IsOver isInert settings.tablePrefix)
    (h : checkBinds sql binds = .ok ()) (hopen : isClosed sql = false) :
    ∃ st, (settings.draftAfter (Call.behindRaw sql binds)).select.1 = .ok st ∧
      count st.sql + 1 = Params.positionalCount st.params := by
  have hleaves : (Document.behindRaw sql binds).leaves =
      [.text "t", .raw sql binds, .text "b", .value (.int 1)] := rfl
  have hinert : Leaf.AreInert (Document.behindRaw sql binds).leaves := by
    rw [hleaves]
    simp only [Leaf.AreInert, List.mem_cons, Leaf.text.injEq, reduceCtorEq, List.not_mem_nil,
      or_false, false_or]
    rintro t (rfl | rfl) <;> decide
  have hr := Settings.isInert_renderer hpre
  have hparams : ((Document.behindRaw sql binds).render settings.renderer).params =
      binds ++ [.positional (.int 1)] := by
    rw [Document.params_render hr hinert, hleaves]
    rfl
  -- what stands behind the fragment has neither a quote nor a backslash to end the quoted text
  have hquoted : Text.IsOver (fun c => c != '\'' && c != '\\')
      (settings.renderer.dialect.quote "b") :=
    Dialect.isOver_quote settings.dialect_renderer (by decide) (by decide) (by decide)
  have hbehind : Text.IsOver (fun c => c != '\'' && c != '\\')
      (")" ++ (" AND " ++ (settings.renderer.dialect.quote "b" ++ " = ?"))) := by
    simp only [Text.isOver_append]
    exact ⟨by decide, by decide, hquoted, by decide⟩
  have hhidden : ∀ t : String, Text.IsOver (fun c => c != '\'' && c != '\\') t →
      '\'' ∉ t.toList ∧ '\\' ∉ t.toList := fun t ht =>
    ⟨fun hc => absurd (ht _ hc) (by decide), fun hc => absurd (ht _ hc) (by decide)⟩
  refine ⟨_, Draft.select_of_finished (Draft.finished_behindRaw h), ?_⟩
  rw [Draft.sql_build, Draft.params_build (Draft.binds_behindRaw h), Draft.renderer_behindRaw h,
    hparams, Document.sql_behindRaw, count_append_of_isInert (by decide),
    count_append_of_isInert (hr.quote "t" (by decide)), count_append_of_isInert (by decide),
    count_append_of_isInert (by decide), count_append_of_not_isClosed hopen (hhidden _ hbehind),
    Criterion.checkBinds_eq_ok h, Params.positionalCount_append]
  rfl

/-- Which marks declaration lets through without a value. If no raw SQL leaves quoted text open, the
marks of a statement are as many as its parameters without a name exactly if no raw operand of a
comparison has a mark. A fragment that does leave quoted text open takes away the mark of the next
condition, although its own marks and binds were found to match. -/
theorem Settings.count_select_eq_iff {settings : Settings}
    (hpre : Text.IsOver isInert settings.tablePrefix) :
    (∀ (cs : List Call) (doc : Document), Call.AreWhere cs →
      (settings.draftAfter cs).finished = .ok doc → (∀ l ∈ doc.leaves, l.IsClosed) →
      ∃ st, (settings.draftAfter cs).select.1 = .ok st ∧
        (count st.sql = Params.positionalCount st.params ↔
          ∀ sql, .operand sql ∈ doc.leaves → count sql = 0)) ∧
    ∀ sql binds, checkBinds sql binds = .ok () → isClosed sql = false →
      ∃ st, (settings.draftAfter (Call.behindRaw sql binds)).select.1 = .ok st ∧
        count st.sql ≠ Params.positionalCount st.params := by
  constructor
  · intro cs doc hcs hdoc hclosed
    obtain ⟨st, hst, hcount⟩ := Settings.count_select hpre hcs hdoc hclosed
    refine ⟨st, hst, ?_⟩
    rw [← Leaf.sum_unboundMarks_eq_zero, hcount]
    omega
  · intro sql binds hbinds hopen
    obtain ⟨st, hst, hcount⟩ := Settings.count_select_of_not_isClosed hpre hbinds hopen
    exact ⟨st, hst, by omega⟩

/-- A comparison with the raw operand `?`, and a fragment with an open quote. -/
theorem Settings.count_select_of_raw_operand :
    (∃ st, (Settings.draftAfter {} [.declare (.tables (.text "t")),
        .require .and (.is "a" (.raw "?"))]).select.1 = .ok st ∧
      count st.sql ≠ Params.positionalCount st.params) ∧
    ∃ st, (Settings.draftAfter {} (Call.behindRaw "x = 'a" [])).select.1 = .ok st ∧
      count st.sql ≠ Params.positionalCount st.params := by
  have hiffs := @Settings.count_select_eq_iff {} Text.isOver_empty
  constructor
  · have hcs : Call.AreWhere [.declare (.tables (.text "t")), .require .and (.is "a" (.raw "?"))] :=
      ⟨fun t ht => List.mem_singleton.1 ht ▸ by decide, .inl (by decide), trivial⟩
    obtain ⟨st, hst, hiff⟩ := hiffs.1 _
      { tables := ["t"], filter := [⟨.and, [.field "a" [.compareRaw .eq "?"]]⟩] } hcs rfl (by
        show ∀ l ∈ [Leaf.text "t", .text "a", .operand "?"], l.IsClosed
        simp only [List.forall_mem_cons]
        exact ⟨trivial, trivial, (by decide : isClosed "?" = true),
          fun l hl => absurd hl List.not_mem_nil⟩)
    refine ⟨st, hst, fun heq => ?_⟩
    have hzero : count "?" = 0 := hiff.1 heq "?" (by
      show Leaf.operand "?" ∈ [Leaf.text "t", .text "a", .operand "?"]
      simp)
    exact absurd hzero (by decide)
  · exact hiffs.2 "x = 'a" [] rfl (by decide)

end SqlSelect
