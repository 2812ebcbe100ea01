import SqlSelect.Proofs.Keys.Requirement
import SqlSelect.Proofs.Ledger
import SqlSelect.Proofs.Selection.Carried

/-!
# A search by key and a search with the key declared

The key condition is put into the finished document. The same comes of declaring it under `AND`
beforehand and searching then, if nothing else is declared on the columns of the key.

* `Draft.mainTable?`, `Draft.keyField`: the main table that the document will have, and how a column
  of the key will be named in it;
* `Draft.finished_withFilter`: without a view, closing leaves the conditions alone;
* `Draft.requireAll_of_reads`: conditions on fields that have none so far;
* `Session.FindsAs`: a search by key is a search with some criteria;
* `Reached.findsAs_key`: which criteria these are for a value, a list, a text with commas and
  values by column.
-/

namespace SqlSelect

/-! ### The name of a column -/

namespace Draft

/-- The main table of the document: the first that is declared, or else that of the record type. -/
def mainTable? (d : Draft) : Option String :=
  d.document.mainTable?.or (if d.name = "" then none else some d.ownTable)

/-- The alias of the main table. -/
def mainAlias? (d : Draft) : Option String :=
  d.mainTable?.bind fun table =>
    d.document.aliases.get? (TableName.expand d.settings.tablePrefix table)

/-- A column of the key, named by the alias of the main table if it has one. -/
def keyField (d : Draft) (column : String) : String :=
  (d.mainAlias?.map fun short => short ++ "." ++ column).getD column

variable {d : Draft} {doc : Document}

/-- Columns keep apart, as they do in a document on the main table. -/
theorem keyField_injective (d : Draft) : Function.Injective d.keyField := by
  have hdocument : d.keyField = Document.qualifyKey d.settings.tablePrefix
      { d.document with tables := d.mainTable?.toList } := by
    funext column
    rw [keyField, Document.qualifyKey, mainAlias?, Document.mainAlias?, Document.mainTable?]
    cases d.mainTable? <;> rfl
  rw [hdocument]
  exact Document.qualifyKey_injective _ _

/-- The column is named so in the finished document. -/
theorem qualifyKey_of_finished (h : d.finished = .ok doc) :
    doc.qualifyKey d.settings.tablePrefix = d.keyField := by
  have hcloses := closes_of_finished h
  have haliases : doc.aliases = d.document.aliases := by
    have hkept : doc.kept.aliases = d.document.kept.aliases := by rw [hcloses.kept]
    exact hkept
  obtain ⟨-, first, -, htable, -, -⟩ := steps_of_finished h
  have hmain : doc.mainTable? = d.mainTable? := by
    rw [Document.mainTable?, mainTable?, Document.mainTable?, hcloses.tables]
    cases htables : d.document.tables with
    | nil =>
      -- a draft without a table and a name is not finished
      have hname : d.name ≠ "" := by
        rintro hname
        rw [withTable, if_neg (not_not_intro htables), if_pos hname] at htable
        cases htable
      rw [if_pos rfl, if_neg hname]
      rfl
    | cons table tables => rfl
  funext column
  rw [Document.qualifyKey, keyField, Document.mainAlias?, mainAlias?, hmain, haliases]

end Draft

theorem Name.isExpression_append (s t : String) :
    isExpression (s ++ t) = (isExpression s || isExpression t) := by
  rw [isExpression, String.toList_append, List.any_append]
  rfl

/-- The key can be declared as it is: there is no view, the columns are names, each once, and so is
the alias of the main table. -/
structure Draft.HasPlainKey (d : Draft) : Prop where
  view : d.document.view = none
  nonblank : ∀ c ∈ d.settings.key.columns, Text.isBlank c = false
  plain : ∀ c ∈ d.settings.key.columns, Name.isExpression c = false
  distinct : d.settings.key.columns.Nodup
  plainAlias : ∀ short ∈ d.mainAlias?, Name.isExpression short = false

namespace Draft.HasPlainKey

variable {d : Draft} {column : String}

theorem isExpression_keyField (h : d.HasPlainKey) (hc : column ∈ d.settings.key.columns) :
    Name.isExpression (d.keyField column) = false := by
  unfold keyField
  cases hmain : d.mainAlias? with
  | none => exact h.plain column hc
  | some short =>
    show Name.isExpression (short ++ "." ++ column) = false
    rw [Name.isExpression_append, Name.isExpression_append, h.plainAlias short hmain,
      h.plain column hc]
    rfl

theorem keyField_ne_empty (h : d.HasPlainKey) (hc : column ∈ d.settings.key.columns) :
    d.keyField column ≠ "" := by
  have hcolumn : column ≠ "" := by
    rintro rfl
    exact absurd (h.nonblank "" hc) (by decide)
  unfold keyField
  cases hmain : d.mainAlias? with
  | none => exact hcolumn
  | some short =>
    show short ++ "." ++ column ≠ ""
    rw [ne_eq, String.append_eq_empty_iff]
    exact fun hempty => hcolumn hempty.2

end Draft.HasPlainKey

/-! ### What the criteria come to -/

namespace Criterion

variable {field : String}

/-- Membership in what a value lists. -/
theorem read_compares_in (hfield : Name.isExpression field = false) (hne : field ≠ "")
    (v : Value) :
    (Criterion.compares field "in" (.value v)).read =
      .ok (.onField field (.inList v.listed false)) := by
  have htrim := Name.trim_of_not_isExpression hfield
  simp only [compares, read, readStated, htrim, if_neg hne, hfield]
  rfl

theorem read_isIn (hfield : Name.isExpression field = false) (vs : List Value) :
    (Criterion.isIn field vs false).read = .ok (.onField field (.inList vs false)) := by
  rw [isIn, read, Name.trim_of_not_isExpression hfield]

end Criterion

/-! ### The conditions of a draft -/

/-- The document with other conditions. -/
def Document.withFilter (bs : List Branch) (doc : Document) : Document := { doc with filter := bs }

@[simp] theorem Document.withFilter_self (doc : Document) : doc.withFilter doc.filter = doc := by
  cases doc
  rfl

/-- The draft with other conditions, and a ledger of them. -/
def Draft.withFilter (bs : List Branch) (ledger : Ledger) (d : Draft) : Draft :=
  { d with ledger, document := d.document.withFilter bs }

namespace Draft

variable {d : Draft}

/-- Conditions on fields, each with its own, that have none under the connective so far. -/
theorem requireAll_of_reads {k : Connective} {criteria : List Criterion}
    {fields : List (String × Condition)}
    (h : List.Forall₂ (fun criterion c => criterion.read = .ok (.onField c.1 c.2)) criteria fields)
    (hnodup : (fields.map Prod.fst).Nodup)
    (hfree : ∀ c ∈ fields, d.ledger.conditions k c.1 = []) :
    ∃ ledger, d.requireAll k criteria =
      d.withFilter (fields.foldl (fun bs c => Filter.putField k c.1 [c.2] bs) d.document.filter)
        ledger := by
  induction h generalizing d with
  | nil =>
    refine ⟨d.ledger, ?_⟩
    rw [List.foldl_nil, withFilter, Document.withFilter_self]
    rfl
  | @cons criterion c criteria fields hread _ ih =>
    obtain ⟨hfresh, hrest⟩ := List.nodup_cons.1 hnodup
    obtain ⟨hc, hfields⟩ := List.forall_mem_cons.1 hfree
    have hrow : (d.ledger.record k c.1 c.2).conditions k c.1 = [c.2] := by
      rw [Ledger.conditions_record, if_pos ⟨rfl, rfl⟩, hc, List.nil_append]
    have hrequire : d.require k criterion =
        d.withFilter (Filter.putField k c.1 [c.2] d.document.filter)
          (d.ledger.record k c.1 c.2) := by
      rw [← hrow, require, hread]
      rfl
    -- the other fields still have none
    have hlater : ∀ e ∈ fields, (d.ledger.record k c.1 c.2).conditions k e.1 = [] := by
      intro e he
      have hne : ¬(k = k ∧ e.1 = c.1) := fun heq => hfresh (heq.2 ▸ List.mem_map_of_mem he)
      rw [Ledger.conditions_record, if_neg hne]
      exact hfields e he
    obtain ⟨ledger, hall⟩ := ih (d := d.withFilter _ (d.ledger.record k c.1 c.2)) hrest hlater
    refine ⟨ledger, ?_⟩
    have hcons : d.requireAll k (criterion :: criteria) =
        (d.require k criterion).requireAll k criteria := rfl
    rw [hcons, hrequire, hall]
    rfl

theorem withLimit_withFilter (standard : UInt64) (bs : List Branch) (doc : Document) :
    withLimit standard (doc.withFilter bs) =
      (withLimit standard doc).map (Document.withFilter bs) := by
  unfold withLimit
  have hpage : (doc.withFilter bs).page = doc.page := rfl
  rw [hpage]
  cases doc.page with
  | none => rfl
  | some page =>
    have hlimit : (doc.withFilter bs).limit = doc.limit := rfl
    dsimp only
    rw [hlimit]
    cases page.toLimit doc.limit standard <;> rfl

/-- Without a view, closing leaves the conditions alone. -/
theorem finished_withFilter (hview : d.document.view = none) (bs : List Branch)
    (ledger : Ledger) :
    (d.withFilter bs ledger).finished = d.finished.map (Document.withFilter bs) := by
  have htable : (d.withFilter bs ledger).withTable = d.withTable.map (Document.withFilter bs) := by
    unfold withTable
    have htables : (d.withFilter bs ledger).document.tables = d.document.tables := rfl
    have hname : (d.withFilter bs ledger).name = d.name := rfl
    rw [htables, hname]
    split
    · rfl
    · split <;> rfl
  have hfault : (d.withFilter bs ledger).fault = d.fault := rfl
  have hsize : (d.withFilter bs ledger).settings = d.settings := rfl
  unfold finished
  rw [hfault, htable, hsize]
  cases d.fault with
  | some f => rfl
  | none =>
    cases hfirst : d.withTable with
    | error f => rfl
    | ok first =>
      show (withLimit d.settings.pageSize (first.withFilter bs) >>= _) =
        (withLimit d.settings.pageSize first >>= _).map _
      rw [withLimit_withFilter]
      cases hsecond : withLimit d.settings.pageSize first with
      | error f => rfl
      | ok second =>
        have hsame : second.view = none := by
          rw [(withLimit_eq hsecond).1, withTable_eq hfirst]
          exact hview
        have hcolumns (doc : Document) (h : doc.view = none) : withColumns doc = doc := by
          rw [withColumns, h]
        show Except.ok (withColumns (second.withFilter bs)) =
          Except.ok ((withColumns second).withFilter bs)
        rw [hcolumns second hsame, hcolumns (second.withFilter bs) hsame]

/-- A search by key is a search with criteria for its columns, if nothing else is declared on
them. -/
theorem findByKey_eq_find (hview : d.document.view = none) {data : KeyData}
    {cs : List (String × Condition)} {criteria : List Criterion}
    (hcs : d.settings.key.conditions data = .ok cs) (hnodup : (cs.map Prod.fst).Nodup)
    (hfree : ∀ c ∈ cs, d.ledger.conditions .and (d.keyField c.1) = [])
    (hread : List.Forall₂
      (fun criterion c => criterion.read = .ok (.onField (d.keyField c.1) c.2)) criteria cs) :
    d.findByKey data = (d.requireAll .and criteria).find := by
  let fields := cs.map fun c => (d.keyField c.1, c.2)
  have hnames : (fields.map Prod.fst).Nodup := by
    have hmap : fields.map Prod.fst = (cs.map Prod.fst).map d.keyField := by
      simp [fields, Function.comp_def]
    rw [hmap]
    exact hnodup.map d.keyField_injective
  obtain ⟨ledger, hall⟩ := requireAll_of_reads (k := .and) (List.forall₂_map_right_iff.2 hread)
    hnames (List.forall_mem_map.2 hfree)
  rw [List.foldl_map] at hall
  rw [hall, findByKey, find, normalize, normalize, finished_withFilter hview]
  refine Prod.ext ?_ rfl
  cases hfinished : d.finished with
  | error f => rfl
  | ok doc =>
    have hput : doc.putConditions d.settings.tablePrefix cs = doc.withFilter (cs.foldl
        (fun bs c => Filter.putField .and (d.keyField c.1) [c.2] bs) d.document.filter) := by
      rw [Document.putConditions, qualifyKey_of_finished hfinished,
        ((closes_of_finished hfinished).unviewed hview).1]
      rfl
    show (doc.requireKey d.settings data >>= fun doc => .ok (d.build (oneRow doc))) = _
    rw [Document.requireKey, hcs]
    show Except.ok (d.build (oneRow (doc.putConditions d.settings.tablePrefix cs))) = _
    rw [hput]
    rfl

end Draft

/-! ### Programs -/

theorem KeyData.condition_scalar (column : String) {v : Value}
    (hv : ∀ t, v = .text t → ',' ∉ t.toList) : (scalar v).condition column = .eq v := by
  cases v with
  | text t => rw [condition, if_neg (by simpa [Text.has] using hv t rfl)]
  | _ => rfl

theorem KeyData.condition_commas (column : String) {t : String} (ht : ',' ∈ t.toList) :
    (scalar (.text t)).condition column = .inList (Value.text t).listed false := by
  rw [condition, if_pos (by simpa [Text.has] using ht)]

/-- The composite key is met by values by column. -/
theorem PrimaryKey.conditions_of_gives {columns : List String} {data : KeyData}
    {values : String → Value} (h : ∀ c ∈ columns, data.Gives c (values c)) :
    (composite columns).conditions data = .ok (columns.map fun c => (c, .eq (values c))) := by
  show List.mapM _ columns = _
  induction columns with
  | nil => rfl
  | cons c columns ih =>
    obtain ⟨hc, hcolumns⟩ := List.forall_mem_cons.1 h
    rw [List.mapM_cons, ih hcolumns, KeyData.gives_iff.1 hc]
    rfl

/-- The search by key is the search with some criteria under `AND`: it leaves the same session, and
the answer is the same. -/
def Session.FindsAs (s : Session) (data : KeyData) (criteria : List Criterion) : Prop :=
  (Call.findByKey data).run s =
    Call.find.run (Call.runAll s (criteria.map (Call.require .and))).1

theorem Call.runAll_require (s : Session) (k : Connective) (criteria : List Criterion) :
    (Call.runAll s (criteria.map (Call.require k))).1 =
      s.withDraft (s.draft.requireAll k criteria) := by
  induction criteria generalizing s with
  | nil => rfl
  | cons criterion criteria ih => exact ih _

theorem Session.findsAs_of_eq {s : Session} {data : KeyData} {criteria : List Criterion}
    (h : s.draft.findByKey data = (s.draft.requireAll .and criteria).find) :
    s.FindsAs data criteria := by
  rw [FindsAs, Call.runAll_require]
  show (s.withDraft (s.draft.findByKey data).2, Answer.statement (s.draft.findByKey data).1, none) =
    _
  rw [h]
  rfl

/-- A search by key agrees with declaring the key and searching then. -/
theorem Reached.findsAs_key {s : Session} {h : List Accepted} (hs : Reached s h)
    (hkey : s.draft.HasPlainKey)
    (hfree : ∀ c ∈ s.draft.settings.key.columns,
      Accepted.conditions .and (s.draft.keyField c) h = []) :
    (∀ column, s.draft.settings.key = .single column →
      (∀ v, (∀ t, v = .text t → ',' ∉ t.toList) →
        s.FindsAs (.scalar v) [.is (s.draft.keyField column) (.value v)]) ∧
      (∀ t, ',' ∈ t.toList →
        s.FindsAs (.scalar (.text t))
          [.compares (s.draft.keyField column) "in" (.value (.text t))]) ∧
      ∀ vs, s.FindsAs (.list vs) [.isIn (s.draft.keyField column) vs false]) ∧
    ∀ columns entries (values : String → Value), s.draft.settings.key = .composite columns →
      (∀ c ∈ columns, (KeyData.map entries).Gives c (values c)) →
      s.FindsAs (.map entries)
        (columns.map fun c => .is (s.draft.keyField c) (.value (values c))) := by
  simp only [← hs.tracks.ledger] at hfree
  have hplain (c) (hc : c ∈ s.draft.settings.key.columns) := hkey.isExpression_keyField hc
  have hne (c) (hc : c ∈ s.draft.settings.key.columns) := hkey.keyField_ne_empty hc
  constructor
  · intro column hsingle
    rw [hsingle] at hfree hplain hne
    have hmem : column ∈ (PrimaryKey.single column).columns := List.mem_singleton_self column
    have hlone {data : KeyData} {criterion : Criterion}
        (hread : criterion.read =
          .ok (.onField (s.draft.keyField column) (data.condition column))) :
        s.FindsAs data [criterion] := by
      have hconditions : s.draft.settings.key.conditions data =
          .ok [(column, data.condition column)] := by
        rw [hsingle]
        rfl
      exact Session.findsAs_of_eq (Draft.findByKey_eq_find hkey.view hconditions
        (List.nodup_singleton column) (List.forall_mem_singleton.2 (hfree column hmem))
        (.cons hread .nil))
    refine ⟨fun v hv => hlone ?_, fun t ht => hlone ?_, fun vs => hlone ?_⟩
    · rw [KeyData.condition_scalar column hv]
      exact Criterion.read_is (hplain column hmem) (hne column hmem) v
    · rw [KeyData.condition_commas column ht]
      exact Criterion.read_compares_in (hplain column hmem) (hne column hmem) (.text t)
    · exact Criterion.read_isIn (hplain column hmem) vs
  · intro columns entries values hcomposite hgives
    have hdistinct := hkey.distinct
    rw [hcomposite] at hfree hplain hne hdistinct
    have hconditions : s.draft.settings.key.conditions (.map entries) =
        .ok (columns.map fun c => (c, .eq (values c))) := by
      rw [hcomposite]
      exact PrimaryKey.conditions_of_gives hgives
    refine Session.findsAs_of_eq (Draft.findByKey_eq_find hkey.view hconditions ?_
      (List.forall_mem_map.2 hfree) ?_)
    · rw [List.map_map]
      exact (List.map_id columns).symm ▸ hdistinct
    · rw [List.forall₂_map_left_iff, List.forall₂_map_right_iff, List.forall₂_same]
      exact fun c hc => Criterion.read_is (hplain c hc) (hne c hc) (values c)

/-- A query on the table of its record type under an alias, with conditions under two
connectives. -/
def Call.keyedSample : List Call :=
  [.name "UserRole", .declare (.«alias» "r"), .require .or (.is "user" (.value (.int 1))),
    .require .and (.is "role" (.value .null))]

/-- What these calls come to under a key. -/
def Session.keyedSample (key : PrimaryKey) : Session :=
  (Call.runAll ⟨.new { key }, none⟩ Call.keyedSample).1

/-- A search for two keys, and one for a key of two columns. The condition on a column without the
alias does not stand in the way. -/
theorem Reached.findsAs_key_keyedSample :
    let one := Session.keyedSample (.single "id")
    let two := Session.keyedSample (.composite ["user", "role"])
    one.draft.HasPlainKey ∧ two.draft.HasPlainKey ∧
      one.FindsAs (.scalar (.text "4,5")) [.compares "r.id" "in" (.value (.text "4,5"))] ∧
      two.FindsAs (.map [("role", .int 3), ("user", .int 2)])
        [.is "r.user" (.value (.int 2)), .is "r.role" (.value (.int 3))] := by
  intro one two
  have hone : one.draft.HasPlainKey :=
    ⟨rfl, by decide +kernel, by decide +kernel, by decide +kernel, by decide +kernel⟩
  have htwo : two.draft.HasPlainKey :=
    ⟨rfl, by decide +kernel, by decide +kernel, by decide +kernel, by decide +kernel⟩
  have hid : one.draft.keyField "id" = "r.id" := by decide +kernel
  have huser : two.draft.keyField "user" = "r.user" := by decide +kernel
  have hrole : two.draft.keyField "role" = "r.role" := by decide +kernel
  have hone' : Reached one _ := (Reached.new _).runAll Call.keyedSample
  have htwo' : Reached two _ := (Reached.new _).runAll Call.keyedSample
  obtain ⟨hsingle, -⟩ := Reached.findsAs_key hone' hone fun c hc =>
    List.isEmpty_iff.1 (by revert c; decide +kernel)
  obtain ⟨-, hcomposite⟩ := Reached.findsAs_key htwo' htwo fun c hc =>
    List.isEmpty_iff.1 (by revert c; decide +kernel)
  refine ⟨hone, htwo, ?_, ?_⟩
  · have hcommas := (hsingle "id" rfl).2.1 "4,5" (by decide)
    rwa [hid] at hcommas
  · have hpair := hcomposite ["user", "role"] [("role", .int 3), ("user", .int 2)]
      (fun c => if c = "user" then .int 2 else .int 3) rfl fun c hc => by
        rcases List.mem_pair.1 hc with rfl | rfl <;> exact KeyData.gives_iff.2 rfl
    simpa [huser, hrole] using hpair

end SqlSelect
