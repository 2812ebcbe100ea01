import SqlSelect.Proofs.Document.Writing
import SqlSelect.Proofs.Validation.Flaws

/-!
# Tables and their aliases

A table is declared with its alias in words. The alias is kept under the resolved name of the
table, in one map for the main table and all joins, and looked up again by the name that the table
has when the statement is written.

* `Text.IsToken`, `AliasedTable`, `AliasedJoin`: tables and joins as they are declared, and what is
  read from their words (`AliasedTable.entries_text`);
* `Naming`: what a draft knows of tables. `Call.naming_run` says which calls leave it alone,
  `Call.naming_runAll` what a program makes of it, and `Call.naming_runAll_joins` what a program of a
  table and its joins does;
* `AliasedTable.aliasOf?`, `AliasedTable.introduction`: the alias under which a table is introduced,
  and when it is its own (`AliasedTable.introduction_eq_iff`);
* `Session.tables_of_select`: the tables in the statement of such a program.
-/

namespace SqlSelect

/-! ### Texts of one word and of two -/

namespace Chars

variable {p : Char → Bool}

theorem splitWhere_of_forall {cs : List Char} (h : ∀ c ∈ cs, p c = false) :
    splitWhere p cs = [cs] := by
  induction cs with
  | nil => rfl
  | cons c cs ih =>
    rw [List.forall_mem_cons] at h
    rw [splitWhere, ih h.2, if_neg (by simp [h.1])]
    rfl

theorem splitWhere_append_cons {cs ds : List Char} {c : Char} (h : ∀ d ∈ cs, p d = false)
    (hc : p c = true) : splitWhere p (cs ++ c :: ds) = cs :: splitWhere p ds := by
  induction cs with
  | nil => rw [List.nil_append, splitWhere, if_pos hc]
  | cons d cs ih =>
    rw [List.forall_mem_cons] at h
    rw [List.cons_append, splitWhere, ih h.2, if_neg (by simp [h.1])]
    rfl

/-- A text with no white space at its ends is trimmed already. -/
theorem trim_of_ends {c d : Char} {cs ds : List Char} (hc : isWhiteSpace c = false)
    (hd : isWhiteSpace d = false) (h : c :: cs = ds ++ [d]) : trim (c :: cs) = c :: cs := by
  have hfront : (c :: cs).dropWhile isWhiteSpace = c :: cs := by simp [hc]
  rw [trim, hfront, trimEnd, h]
  simp [hd]

end Chars

/-- A text of one word that stands in a list of tables by itself. -/
structure Text.IsToken (s : String) : Prop where
  ne_empty : s ≠ ""
  noSpace : ∀ c ∈ s.toList, Chars.isWhiteSpace c = false
  noComma : ',' ∉ s.toList
  noParen : ')' ∉ s.toList

instance (s : String) : Decidable (Text.IsToken s) :=
  decidable_of_iff
    (s ≠ "" ∧ s.toList.all (!Chars.isWhiteSpace ·) ∧ ',' ∉ s.toList ∧ ')' ∉ s.toList)
    ⟨fun ⟨hne, hspace, hcomma, hparen⟩ => ⟨hne, by simpa using hspace, hcomma, hparen⟩,
      fun h => ⟨h.ne_empty, by simpa using h.noSpace, h.noComma, h.noParen⟩⟩

/-- A word behind a space is seen. -/
theorem Text.ne_append_space (s t : String) : s ≠ s ++ (" " ++ t) := fun h => by
  simpa using congrArg String.toList h

/-! ### Declarations of tables with an alias -/

/-- A table and its alias, as they are declared. -/
structure AliasedTable where
  table : String
  short : String
  isToken_table : Text.IsToken table
  isToken_short : Text.IsToken short

/-- A table that is joined under an alias. -/
structure AliasedJoin extends AliasedTable where
  kind : JoinKind
  on : List JoinOn

namespace AliasedTable

/-- The table and its alias in words. -/
def text (t : AliasedTable) : String := t.table ++ " " ++ t.short

/-- The declaration of the main table. -/
def declaration (t : AliasedTable) : Declaration := .tables (.text t.text)

theorem toList_text (t : AliasedTable) :
    t.text.toList = t.table.toList ++ ' ' :: t.short.toList := by
  simp [text]

theorem not_mem_text {t : AliasedTable} {c : Char} (hc : c ≠ ' ') (htable : c ∉ t.table.toList)
    (hshort : c ∉ t.short.toList) : c ∉ t.text.toList := by
  rw [toList_text, List.mem_append, List.mem_cons]
  rintro (h | h | h)
  · exact htable h
  · exact hc h
  · exact hshort h

theorem words_text (t : AliasedTable) : Text.words t.text = [t.table, t.short] := by
  have htable : t.table.toList ≠ [] := by simpa using t.isToken_table.ne_empty
  have hshort : t.short.toList ≠ [] := by simpa using t.isToken_short.ne_empty
  rw [Text.words, Chars.words, toList_text,
    Chars.splitWhere_append_cons t.isToken_table.noSpace (by decide),
    Chars.splitWhere_of_forall t.isToken_short.noSpace]
  simp [htable, hshort]

theorem trim_text (t : AliasedTable) : Text.trim t.text = t.text := by
  have htable : t.table.toList ≠ [] := by simpa using t.isToken_table.ne_empty
  have hshort : t.short.toList ≠ [] := by simpa using t.isToken_short.ne_empty
  obtain ⟨c, cs, hfront⟩ := List.exists_cons_of_ne_nil htable
  obtain ⟨ds, d, hback⟩ : ∃ ds d, t.short.toList = ds ++ [d] :=
    ⟨_, _, (List.dropLast_append_getLast hshort).symm⟩
  have hc := t.isToken_table.noSpace c (by simp [hfront])
  have hd := t.isToken_short.noSpace d (by simp [hback])
  have hends : c :: (cs ++ ' ' :: t.short.toList) = (t.table.toList ++ ' ' :: ds) ++ [d] := by
    simp [hfront, hback]
  have htext : t.text.toList = c :: (cs ++ ' ' :: t.short.toList) := by simp [toList_text, hfront]
  rw [Text.trim, htext, Chars.trim_of_ends hc hd hends, ← htext, String.ofList_toList]

theorem has_paren_text (t : AliasedTable) : Text.has t.text ')' = false := by
  have hparen := not_mem_text (by decide) t.isToken_table.noParen t.isToken_short.noParen
  simpa [Text.has] using hparen

theorem items_text (t : AliasedTable) : Text.items ',' t.text = [t.text] := by
  have hcomma := not_mem_text (by decide) t.isToken_table.noComma t.isToken_short.noComma
  have hsplit : Chars.splitOn ',' t.text.toList = [t.text.toList] :=
    Chars.splitWhere_of_forall fun c hc => by
      rw [beq_eq_false_iff_ne]
      rintro rfl
      exact hcomma hc
  have hne : t.text ≠ "" := fun h => by
    have := t.words_text
    rw [h] at this
    cases this
  simp [Text.items, Text.splitOn, hsplit, trim_text, hne]

theorem entry_text (t : AliasedTable) : TableSpec.entry t.text = (t.table, some t.short) := by
  simp [TableSpec.entry, Name.aliased?, words_text]

theorem entries_text (t : AliasedTable) :
    (TableSpec.text t.text).entries = [(t.table, some t.short)] := by
  simp [TableSpec.entries, trim_text, has_paren_text, items_text, entry_text]

end AliasedTable

/-- The declaration of a join. -/
def AliasedJoin.declaration (j : AliasedJoin) : Declaration := .join j.text j.on j.kind

/-- The join as it stands in a document. -/
def AliasedJoin.join (j : AliasedJoin) : Join := ⟨j.table, j.kind, j.on⟩

/-! ### What a draft knows of tables -/

/-- The tables of a draft, its joins and their aliases, and the prefix for its placeholders. -/
structure Naming where
  tablePrefix : String
  tables : List String
  aliases : NameMap
  joins : List Join

namespace Naming

/-- What is known when the main table is declared. -/
def setTable (n : Naming) (t : AliasedTable) : Naming :=
  { n with
    tables := [t.table]
    aliases := n.aliases.insert (TableName.expand n.tablePrefix t.table) t.short }

/-- What is known when a join is declared. -/
def addJoin (n : Naming) (j : AliasedJoin) : Naming :=
  { n with
    aliases := n.aliases.insert (TableName.expand n.tablePrefix j.table) j.short
    joins := n.joins ++ [j.join] }

end Naming

/-- What the draft knows of tables. -/
def Draft.naming (d : Draft) : Naming :=
  ⟨d.settings.tablePrefix, d.document.tables, d.document.aliases, d.document.joins⟩

/-- Does the call declare a table, an alias or a join, or close the draft? -/
def Call.isNaming : Call → Bool
  | .declare (.tables _) => true
  | .declare (.«alias» _) => true
  | .declare (.aliases _) => true
  | .declare (.join _ _ _) => true
  | c => c.isClosing

namespace Draft

variable (d : Draft)

/-- The draft without its conditions, its unions, and what comes along with them. -/
def flat : Draft :=
  { d with
    document := { d.document with filter := [], unions := [] }
    ledger := []
    binds := []
    fault := none }

theorem flat_require (k : Connective) (c : Criterion) : (d.require k c).flat = d.flat := by
  unfold require
  cases c.read with
  | ok x => cases x <;> rfl
  | error f => rfl

theorem flat_requireAll (k : Connective) (cs : List Criterion) :
    (d.requireAll k cs).flat = d.flat := by
  unfold requireAll
  induction cs generalizing d with
  | nil => rfl
  | cons c cs ih => exact (ih (d.require k c)).trans (flat_require d k c)

theorem flat_adoptGroup (k : Connective) (inner : Draft) :
    (d.adoptGroup k inner).flat = d.flat := by
  have hfault : ((inner.fault.map d.recordFault).getD d).flat = d.flat := by
    cases inner.fault <;> rfl
  unfold adoptGroup
  dsimp only
  split
  · exact hfault
  · exact hfault

theorem flat_adoptQuery (inner : Draft) {place : Draft → Document → Draft}
    (hplace : ∀ e doc, (place e doc).flat = e.flat) :
    (d.adoptQuery inner place).flat = d.flat := by
  unfold adoptQuery
  dsimp only
  split
  · exact hplace _ _
  · rfl

theorem naming_eq_of_flat {d e : Draft} (h : d.flat = e.flat) : d.naming = e.naming := by
  have hnaming : d.flat.naming = e.flat.naming := by rw [h]
  exact hnaming

/-- Other declarations leave the tables alone. -/
theorem naming_declare {x : Declaration} (hx : (Call.declare x).isNaming = false) :
    (d.declare x).naming = d.naming := by
  cases x with
  | tables spec => cases hx
  | «alias» short => cases hx
  | aliases pairs => cases hx
  | join table on kind => cases hx
  | fields text =>
    obtain ⟨fields, hfields⟩ := d.document.addFields_eq text
    have hdeclare : d.declare (.fields text) =
        { d with document := d.document.addFields text } := rfl
    rw [hdeclare, hfields]
    rfl
  | _ => rfl

theorem naming_declare_table (t : AliasedTable) :
    (d.declare t.declaration).naming = d.naming.setTable t := by
  have hdocument : (d.declare t.declaration).document =
      d.document.setTables d.settings.tablePrefix [(t.table, some t.short)] :=
    congrArg (d.document.setTables d.settings.tablePrefix) t.entries_text
  simp only [naming, hdocument]
  rfl

theorem naming_declare_join (j : AliasedJoin) :
    (d.declare j.declaration).naming = d.naming.addJoin j := by
  have hdocument : (d.declare j.declaration).document =
      { d.document.addAlias d.settings.tablePrefix j.table j.short with
        joins := d.document.joins ++ [j.join] } := by
    show d.document.addJoin d.settings.tablePrefix j.text j.on j.kind = _
    simp [Document.addJoin, j.trim_text, j.has_paren_text, j.entry_text, Document.addAlias,
      AliasedJoin.join]
  simp only [naming, hdocument]
  rfl

end Draft

/-- Any other call leaves the tables alone. -/
theorem Call.naming_run (s : Session) {c : Call} (hc : c.isNaming = false) :
    (c.run s).1.draft.naming = s.draft.naming := by
  cases c with
  | declare x => exact s.draft.naming_declare hc
  | require k c => exact Draft.naming_eq_of_flat (s.draft.flat_require k c)
  | requireAll k cs => exact Draft.naming_eq_of_flat (s.draft.flat_requireAll k cs)
  | group k body => exact Draft.naming_eq_of_flat (s.draft.flat_adoptGroup k _)
  | exist k negated body =>
    exact Draft.naming_eq_of_flat (s.draft.flat_adoptQuery _ fun _ _ => rfl)
  | membership k field negated body =>
    exact Draft.naming_eq_of_flat (s.draft.flat_adoptQuery _ fun _ _ => rfl)
  | union all body => exact Draft.naming_eq_of_flat (s.draft.flat_adoptQuery _ fun _ _ => rfl)
  | normalize => cases hc
  | select => cases hc
  | find => cases hc
  | findByKey data => cases hc
  | finish => rw [Call.draft_run_finish]
  | requireKey data => rw [Call.draft_run_requireKey]
  | _ => rfl

theorem Call.runAll_cons (s : Session) (c : Call) (cs : List Call) :
    (Call.runAll s (c :: cs)).1 = (Call.runAll (c.run s).1 cs).1 := by
  rw [Call.runAll]

/-- The declaration makes `f n` of what is known, if that was `n`. -/
def Declaration.Makes (x : Declaration) (f : Naming → Naming) : Prop :=
  ∀ d : Draft, (d.declare x).naming = f d.naming

/-- What is known after a program: the effects of its calls that say something of tables, in the
order of the calls. -/
theorem Call.naming_runAll (s : Session) {cs : List Call} {xs : List Declaration}
    {fs : List (Naming → Naming)} (hcs : cs.filter Call.isNaming = xs.map .declare)
    (hxs : List.Forall₂ Declaration.Makes xs fs) :
    (Call.runAll s cs).1.draft.naming = fs.foldl (fun n f => f n) s.draft.naming := by
  induction cs generalizing s xs fs with
  | nil =>
    obtain rfl : xs = [] := by simpa using hcs.symm
    cases hxs
    rfl
  | cons c cs ih =>
    cases hc : c.isNaming with
    | false =>
      rw [List.filter_cons_of_neg (by simp [hc])] at hcs
      rw [Call.runAll_cons, ih _ hcs hxs, Call.naming_run s hc]
    | true =>
      rw [List.filter_cons_of_pos hc] at hcs
      cases hxs with
      | nil => cases hcs
      | cons hx hxs =>
        obtain ⟨rfl, hrest⟩ := List.cons.inj hcs
        rw [Call.runAll_cons, ih _ hrest hxs, List.foldl_cons, ← hx]
        rfl

theorem Call.naming_runAll_joins (s : Session) {cs : List Call} {t : AliasedTable}
    {js : List AliasedJoin}
    (hcs : cs.filter Call.isNaming =
      .declare t.declaration :: js.map fun j => .declare j.declaration) :
    (Call.runAll s cs).1.draft.naming = js.foldl Naming.addJoin (s.draft.naming.setTable t) := by
  have hjoins : List.Forall₂ Declaration.Makes (js.map AliasedJoin.declaration)
      (js.map fun j n => n.addJoin j) := by
    rw [List.forall₂_map_left_iff, List.forall₂_map_right_iff, List.forall₂_same]
    exact fun j _ d => d.naming_declare_join j
  have hcalls : cs.filter Call.isNaming =
      (t.declaration :: js.map AliasedJoin.declaration).map .declare := by
    rw [hcs, List.map_cons, List.map_map]
    rfl
  have htable : t.declaration.Makes fun n => n.setTable t := fun d => d.naming_declare_table t
  rw [naming_runAll s hcalls (.cons htable hjoins), List.foldl_cons, List.foldl_map]

/-! ### The alias behind a name -/

/-- Of several values put in under a name, the last one stays. -/
theorem NameMap.get?_foldl_insert {α : Type} (key value : α → String) (as : List α) (m : NameMap)
    (name : String) :
    (as.foldl (fun m a => m.insert (key a) (value a)) m).get? name =
      ((as.reverse.find? fun a => key a = name).map value).or (m.get? name) := by
  induction as generalizing m with
  | nil => rfl
  | cons a as ih =>
    rw [List.foldl_cons, ih, List.reverse_cons, List.find?_append, NameMap.get?_insert]
    cases as.reverse.find? fun a => key a = name with
    | some b => rfl
    | none =>
      by_cases ha : key a = name
      · simp [ha]
      · simp [ha, Ne.symm ha]

theorem Naming.foldl_addJoin (n : Naming) (js : List AliasedJoin) :
    js.foldl addJoin n = { n with
      aliases := js.foldl (fun m j => m.insert (TableName.expand n.tablePrefix j.table) j.short)
        n.aliases
      joins := n.joins ++ js.map AliasedJoin.join } := by
  induction js generalizing n with
  | nil => simp
  | cons j js ih => simp [ih, addJoin]

namespace AliasedTable

/-- The alias that some declarations leave behind a resolved name: that of the last declaration of
a table of this name. -/
def aliasOf? (pre : String) (ts : List AliasedTable) (resolved : String) : Option String :=
  (ts.reverse.find? fun t => TableName.expand pre t.table = resolved).map short

/-- How a table is introduced behind `FROM` or `JOIN`, where `declared` is the prefix under which
aliases are kept and `written` the one under which the statement is written. -/
def introduction (declared written : String) (ts : List AliasedTable) (table : String) : String :=
  let resolved := TableName.expand written table
  if Scope.isOpaqueTable resolved then resolved
  else resolved ++ ((aliasOf? declared ts resolved).map fun short => " " ++ short).getD ""

variable {p q : String} {ts before after : List AliasedTable} {t u : AliasedTable}

/-- With aliases apart, a table has its own alias if it has the name that is looked up and no later
one has. -/
theorem aliasOf?_eq_some_iff (hts : (ts.map short).Nodup) (hsplit : ts = before ++ u :: after)
    (resolved : String) :
    aliasOf? p ts resolved = some u.short ↔
      TableName.expand p u.table = resolved ∧
        ∀ w ∈ after, TableName.expand p w.table ≠ resolved := by
  have hfind : ts.reverse.find? (fun t => TableName.expand p t.table = resolved) =
      (after.reverse.find? fun t => TableName.expand p t.table = resolved).or
        ((u :: before.reverse).find? fun t => TableName.expand p t.table = resolved) := by
    rw [hsplit, List.reverse_append, List.reverse_cons, List.append_assoc, List.find?_append]
    rfl
  rw [aliasOf?, hfind]
  constructor
  · intro h
    obtain ⟨w, hw, hshort⟩ := Option.map_eq_some_iff.1 h
    rw [← hfind] at hw
    -- the alias tells which of the tables was found
    have hmem : w ∈ ts := List.mem_reverse.1 (List.mem_of_find?_eq_some hw)
    obtain rfl : w = u := List.inj_on_of_nodup_map hts hmem (by simp [hsplit]) hshort
    refine ⟨by simpa using List.find?_some hw, fun x hx hname => ?_⟩
    have hlater : (after.reverse.find? fun t => TableName.expand p t.table = resolved).isSome :=
      List.find?_isSome.2 ⟨x, List.mem_reverse.2 hx, by simpa using hname⟩
    obtain ⟨y, hy⟩ := Option.isSome_iff_exists.1 hlater
    rw [hfind, hy, Option.some_or] at hw
    obtain rfl : y = w := Option.some.inj hw
    rw [hsplit, List.map_append, List.map_cons] at hts
    exact (List.nodup_cons.1 hts.of_append_right).1
      (List.mem_map_of_mem (List.mem_reverse.1 (List.mem_of_find?_eq_some hy)))
  · rintro ⟨hname, hlater⟩
    have hnone : (after.reverse.find? fun t => TableName.expand p t.table = resolved) = none :=
      List.find?_eq_none.2 fun w hw => by simpa using hlater w (List.mem_reverse.1 hw)
    simp [hnone, hname]

/-- A table is introduced with its own alias if its resolved name is a name, the same where it is
declared and where it is written, and not that of a later table. -/
theorem introduction_eq_iff (hts : (ts.map short).Nodup) (hsplit : ts = before ++ u :: after) :
    introduction p q ts u.table = TableName.expand q u.table ++ " " ++ u.short ↔
      Scope.isOpaqueTable (TableName.expand q u.table) = false ∧
        TableName.expand p u.table = TableName.expand q u.table ∧
        ∀ w ∈ after, TableName.expand p w.table ≠ TableName.expand q u.table := by
  rw [← aliasOf?_eq_some_iff hts hsplit, introduction]
  cases hopaque : Scope.isOpaqueTable (TableName.expand q u.table) with
  | true => simpa [String.append_assoc] using Text.ne_append_space _ _
  | false =>
    cases halias : aliasOf? p ts (TableName.expand q u.table) with
    | none => simpa [String.append_assoc] using Text.ne_append_space _ _
    | some short => simp [String.append_assoc]

end AliasedTable

/-- What such a program leaves behind if nothing was known of aliases and joins. -/
theorem Call.naming_runAll_of_empty (s : Session) {cs : List Call} {t : AliasedTable}
    {js : List AliasedJoin} (haliases : s.draft.document.aliases = {})
    (hjoins : s.draft.document.joins = [])
    (hcs : cs.filter Call.isNaming =
      .declare t.declaration :: js.map fun j => .declare j.declaration) :
    let d := (Call.runAll s cs).1.draft.document
    d.tables = [t.table] ∧ d.joins = js.map AliasedJoin.join ∧
      ∀ name, d.aliases.get? name = AliasedTable.aliasOf? s.draft.settings.tablePrefix
        (t :: js.map AliasedJoin.toAliasedTable) name := by
  have hnaming := Call.naming_runAll_joins s hcs
  rw [Naming.foldl_addJoin] at hnaming
  have htables := congrArg Naming.tables hnaming
  have hjoined := congrArg Naming.joins hnaming
  have hnames := congrArg Naming.aliases hnaming
  refine ⟨htables, hjoined.trans ?_, fun name => ?_⟩
  · show s.draft.document.joins ++ _ = _
    rw [hjoins, List.nil_append]
  · have hfold : (Call.runAll s cs).1.draft.document.aliases =
        (t :: js.map AliasedJoin.toAliasedTable).foldl
          (fun m u => m.insert (TableName.expand s.draft.settings.tablePrefix u.table) u.short)
          s.draft.document.aliases := by
      rw [List.foldl_cons, List.foldl_map]
      exact hnames
    rw [hfold, haliases, NameMap.get?_foldl_insert, NameMap.get?_empty, Option.or_none]
    rfl

/-! ### Tables in a statement -/

namespace Scope

variable {s : Scope} {pre : String} {ts : List AliasedTable}

theorem quote_of_generic (hgeneric : s.renderer.dialect = .generic) (text : String) :
    s.quote text = text := by
  rw [Scope.quote, hgeneric, Dialect.quote_generic]

/-- Under the generic dialect a table is introduced with the alias that is kept under its name. -/
theorem table_eq_introduction (hgeneric : s.renderer.dialect = .generic)
    (haliases : ∀ name, s.aliases.get? name = AliasedTable.aliasOf? pre ts name) (table : String) :
    s.table table = AliasedTable.introduction pre s.renderer.tablePrefix ts table := by
  simp [Scope.table, AliasedTable.introduction, Scope.expand, quote_of_generic hgeneric, haliases]

/-- The text of a join whose table is introduced as `table`. -/
def joinAs (s : Scope) (j : AliasedJoin) (table : String) : String :=
  " " ++ j.kind.keyword ++ " JOIN " ++ table ++
    if j.on = [] then "" else " ON " ++ Text.join " AND " (j.on.map s.joinOn)

end Scope

namespace Document

variable {d : Document} {r : Renderer} {pre : String} {ts : List AliasedTable}

/-- The main table of a statement, if it is the only one. -/
theorem clauseText_tables (hgeneric : r.dialect = .generic)
    (haliases : ∀ name, d.aliases.get? name = AliasedTable.aliasOf? pre ts name) {table : String}
    (htables : d.tables = [table]) :
    d.clauseText r .tables = AliasedTable.introduction pre r.tablePrefix ts table := by
  rw [clauseText, htables, List.map_singleton, Text.join_singleton]
  exact Scope.table_eq_introduction hgeneric haliases table

/-- The joins of a statement, each in its turn. -/
theorem clauseText_joins (hgeneric : r.dialect = .generic)
    (haliases : ∀ name, d.aliases.get? name = AliasedTable.aliasOf? pre ts name)
    {js : List AliasedJoin} (hjoins : d.joins = js.map AliasedJoin.join) :
    d.clauseText r .joins = Text.join "" (js.map fun j => (d.scope r).joinAs j
      (AliasedTable.introduction pre r.tablePrefix ts j.table)) := by
  have hjoin : ∀ j : AliasedJoin, (d.scope r).join j.join =
      (d.scope r).joinAs j (AliasedTable.introduction pre r.tablePrefix ts j.table) := fun j =>
    congrArg ((d.scope r).joinAs j) (Scope.table_eq_introduction hgeneric haliases j.table)
  rw [clauseText, hjoins, List.map_map]
  exact congrArg (Text.join "") (List.map_congr_left fun j _ => hjoin j)

/-- What a statement starts with, up to its main table. -/
def opening (d : Document) (r : Renderer) : String :=
  "SELECT" ++ d.clauseText r .distinct ++ " " ++ d.clauseText r .fields ++ " FROM "

/-- The flat clauses up to the joins stand in front of all others. -/
theorem exists_sql_render (r : Renderer) (d : Document) :
    ∃ rest, (d.render r).sql = d.opening r ++ d.clauseText r .tables ++ d.clauseText r .forced ++
      d.clauseText r .joins ++ rest := by
  have hfront : Fragment.sql (["SELECT", d.clauseText r .distinct, " ", d.clauseText r .fields,
      " FROM ", d.clauseText r .tables, d.clauseText r .forced, d.clauseText r .joins].map .text) =
      d.opening r ++ d.clauseText r .tables ++ d.clauseText r .forced ++
        d.clauseText r .joins := by
    simp [opening, Piece.sql, String.append_assoc]
  rw [render_eq, Fragment.sql_append, hfront]
  exact ⟨_, rfl⟩

end Document

/-- A draft on some table has a statement if there is no fault and no page is asked for. -/
theorem Draft.exists_select {d : Draft} (htables : d.document.tables ≠ [])
    (hfault : d.fault = none) (hpage : d.document.page = none) :
    ∃ st : Statement, d.select.1 = .ok st := by
  have hend : d.endFault? = none := by
    rw [endFault?, if_neg fun h => htables h.1, hpage]
    rfl
  obtain ⟨doc, hdoc⟩ := exists_finished (d := d) (by rw [hfault, hend, Option.or_none])
  exact ⟨_, select_of_finished hdoc⟩

/-- Which aliases the tables of a statement have. A draft that knows of no alias and no join is
given a table and then joins, each with an alias of its own, and whatever else one likes that says
nothing of tables. Without a fault and a page it has a statement. In its statement each table is
introduced with the alias of the last declaration of a table of the same name. So a table keeps its
own alias unless a later one has its name, or its name is resolved in another way when the statement
is written. -/
theorem Session.tables_of_select (s : Session) {t : AliasedTable} {js : List AliasedJoin}
    {cs : List Call} (haliases : s.draft.document.aliases = {})
    (hjoins : s.draft.document.joins = [])
    (hcs : cs.filter Call.isNaming =
      .declare t.declaration :: js.map fun j => .declare j.declaration)
    (hshorts : ((t :: js.map AliasedJoin.toAliasedTable).map AliasedTable.short).Nodup) :
    let e := (Call.runAll s cs).1.draft
    let ts := t :: js.map AliasedJoin.toAliasedTable
    let p := s.draft.settings.tablePrefix
    let q := e.renderer.tablePrefix
    (e.fault = none → e.document.page = none → ∃ st : Statement, e.select.1 = .ok st) ∧
      (e.renderer.dialect = .generic → ∀ st : Statement, e.select.1 = .ok st →
        ∃ (doc : Document) (rest : String), e.finished = .ok doc ∧
          st.sql = doc.opening e.renderer ++ AliasedTable.introduction p q ts t.table ++
            doc.clauseText e.renderer .forced ++
            Text.join "" (js.map fun j => (doc.scope e.renderer).joinAs j
              (AliasedTable.introduction p q ts j.table)) ++ rest) ∧
      ∀ (before : List AliasedTable) (u : AliasedTable) (after : List AliasedTable),
        ts = before ++ u :: after →
        (AliasedTable.introduction p q ts u.table =
            TableName.expand q u.table ++ " " ++ u.short ↔
          Scope.isOpaqueTable (TableName.expand q u.table) = false ∧
            TableName.expand p u.table = TableName.expand q u.table ∧
            ∀ w ∈ after, TableName.expand p w.table ≠ TableName.expand q u.table) := by
  intro e ts p q
  obtain ⟨htables, hjoined, hnames⟩ := Call.naming_runAll_of_empty s haliases hjoins hcs
  refine ⟨fun hfault hpage => ?_, fun hgeneric st hst => ?_, fun before u after hsplit =>
    AliasedTable.introduction_eq_iff hshorts hsplit⟩
  · have hsome : e.document.tables ≠ [] := htables ▸ List.cons_ne_nil _ _
    exact Draft.exists_select hsome hfault hpage
  · obtain ⟨doc, hdoc, rfl⟩ := Draft.exists_of_select hst
    have hcloses := Draft.closes_of_finished hdoc
    -- closing leaves the aliases and the joins as they are, and the table too, since there is one
    have hmain : doc.tables = [t.table] := by
      rw [hcloses.tables, htables]
      rfl
    have hkept : doc.kept.joins = e.document.kept.joins := by rw [hcloses.kept]
    have haliased : doc.kept.aliases = e.document.kept.aliases := by rw [hcloses.kept]
    have hknown : ∀ name, doc.aliases.get? name = AliasedTable.aliasOf? p ts name := fun name =>
      (congrArg (NameMap.get? · name) haliased).trans (hnames name)
    obtain ⟨rest, hsql⟩ := doc.exists_sql_render e.renderer
    refine ⟨doc, rest, hdoc, ?_⟩
    rw [Draft.sql_build, hsql, Document.clauseText_tables hgeneric hknown hmain,
      Document.clauseText_joins hgeneric hknown (hkept.trans hjoined)]

/-- A table by a placeholder. -/
def AliasedTable.userSample : AliasedTable :=
  ⟨"__USER__", "u", by decide, by decide⟩

/-- Two joins, the first of them with the table above in another spelling. -/
def AliasedJoin.userSample : List AliasedJoin :=
  [⟨⟨"p_user", "v", by decide, by decide⟩, .left, [.raw "u.id = v.pid"]⟩,
   ⟨⟨"role", "r", by decide, by decide⟩, .inner, []⟩]

/-- The declarations of these, with a condition and a field in between. -/
def Call.userSample : List Call :=
  [.require .and (.is "u.a" (.value (.int 1))), .declare AliasedTable.userSample.declaration,
    .declare (.fields "v.a")] ++ AliasedJoin.userSample.map fun j => .declare j.declaration

/-- Both spellings of the one table are introduced with the later alias, and the other table with
its own. -/
theorem Session.tables_of_select_userSample :
    let e := (Call.runAll ⟨.new { tablePrefix := "p_" }, none⟩ Call.userSample).1.draft
    let ts := .userSample :: AliasedJoin.userSample.map AliasedJoin.toAliasedTable
    let introduction := AliasedTable.introduction "p_" "p_" ts
    (∃ st doc rest, e.select.1 = .ok st ∧ e.finished = .ok doc ∧
      st.sql = doc.opening e.renderer ++ introduction "__USER__" ++
        doc.clauseText e.renderer .forced ++
        Text.join "" (AliasedJoin.userSample.map fun j =>
          (doc.scope e.renderer).joinAs j (introduction j.table)) ++ rest) ∧
      ts.map (fun t => introduction t.table) = ["p_user v", "p_user v", "role r"] := by
  obtain ⟨hanswers, hselect, -⟩ := @Session.tables_of_select
    ⟨.new { tablePrefix := "p_" }, none⟩ .userSample AliasedJoin.userSample Call.userSample
    rfl rfl rfl (by decide)
  obtain ⟨st, hst⟩ := hanswers rfl rfl
  obtain ⟨doc, rest, hdoc, hsql⟩ := hselect rfl st hst
  exact ⟨⟨st, doc, rest, hst, hdoc, hsql⟩, by decide +kernel⟩

/-- A table that is joined with itself is introduced twice with the later alias, and not with its
own, also where no prefix and no placeholder is involved. -/
theorem Session.tables_not_apart :
    let d := (Call.runAll ⟨.new {}, none⟩ [.declare (.tables (.text "user u")),
      .declare (.joinText "user v" "u.id = v.pid" .inner)]).1.draft
    ∃ st, d.select.1 = .ok st ∧
      st.sql = "SELECT * FROM user v INNER JOIN user v ON u.id=v.pid" ∧
      ¬ "SELECT * FROM user u".toList <+: st.sql.toList :=
  ⟨_, rfl, by decide +kernel, by decide +kernel⟩

end SqlSelect
