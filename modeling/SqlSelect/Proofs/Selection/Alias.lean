import SqlSelect.Proofs.Aliases
import SqlSelect.Proofs.Selection.Key

/-!
# The alias in a search by key

A search by key names its columns by the alias that is kept for the main table. The FROM clause
introduces the table with this alias if the table is a name. A subquery, or a table of several
words, stands there as it is, and then the alias is used without being introduced.

* `Scope.tableAs`: a table as it is introduced under an alias;
* `Draft.mainAlias?_of_alias`: an alias that is declared last is that of the main table;
* `Draft.findByKey_introduces`: when the alias in a search by key is introduced.
-/

namespace SqlSelect

namespace Scope

variable {s : Scope} {table short : String}

/-- A table as it is introduced under an alias. -/
def tableAs (s : Scope) (table short : String) : String :=
  s.quote (s.expand table) ++ " " ++ s.quote short

/-- A subquery, or a table of several words, stands as it is. -/
theorem table_of_isOpaqueTable (h : isOpaqueTable (s.expand table) = true) :
    s.table table = s.expand table := by
  simp [Scope.table, h]

theorem table_of_alias (h : isOpaqueTable (s.expand table) = false)
    (halias : s.aliases.get? (s.expand table) = some short) :
    s.table table = s.tableAs table short := by
  simp [Scope.table, tableAs, h, halias, String.append_assoc]

/-- In a dialect without quotes a table is introduced under an alias only if it is a name for which
this alias is kept. -/
theorem table_eq_tableAs_iff (hgeneric : s.renderer.dialect = .generic) :
    s.table table = s.tableAs table short ↔
      isOpaqueTable (s.expand table) = false ∧
        s.aliases.get? (s.expand table) = some short := by
  refine ⟨fun h => ?_, fun h => table_of_alias h.1 h.2⟩
  rw [Scope.table, tableAs, quote_of_generic hgeneric, quote_of_generic hgeneric,
    String.append_assoc] at h
  cases hwhole : isOpaqueTable (s.expand table) with
  | true =>
    rw [if_pos hwhole] at h
    exact absurd h (Text.ne_append_space _ _)
  | false =>
    rw [if_neg (by simp [hwhole])] at h
    cases halias : s.aliases.get? (s.expand table) with
    | none =>
      rw [halias] at h
      exact absurd (by simpa using h) (Text.ne_append_space (s.expand table) short)
    | some other =>
      rw [halias] at h
      have hshort : other = short := by simpa [quote_of_generic hgeneric] using h
      exact ⟨rfl, by rw [hshort]⟩

end Scope

namespace Draft

variable {d : Draft} {doc : Document}

/-- A finished document has a main table. -/
theorem exists_mainTable_of_finished (h : d.finished = .ok doc) :
    ∃ table tables, doc.tables = table :: tables := by
  refine List.exists_cons_of_ne_nil ?_
  rw [(closes_of_finished h).tables]
  split
  · exact List.cons_ne_nil _ _
  · assumption

/-- An alias that is declared last is that of the main table, whatever the table. -/
theorem mainAlias?_of_alias {short : String}
    (h : (d.declare (.«alias» short)).finished = .ok doc) :
    doc.mainAlias? d.settings.tablePrefix = some short := by
  have hcloses := closes_of_finished h
  have hkept : doc.kept.aliases = (d.declare (.«alias» short)).document.kept.aliases := by
    rw [hcloses.kept]
  have haliases : doc.aliases = d.document.aliases.insert (TableName.expand
      d.settings.tablePrefix (d.document.mainTable?.getD d.ownTable)) short := hkept
  have hmain : doc.mainTable? = some (d.document.mainTable?.getD d.ownTable) := by
    have htables : doc.tables =
        if d.document.tables = [] then [d.ownTable] else d.document.tables := hcloses.tables
    rw [Document.mainTable?, Document.mainTable?, htables]
    cases d.document.tables <;> rfl
  rw [Document.mainAlias?, hmain, Option.bind_some, haliases, NameMap.get?_insert, if_pos rfl]

/-- When the alias in a search by key is introduced. The key stands in the WHERE clause, its columns
named by the alias of the main table if it has one. The FROM clause starts with the main table. It
introduces the table under this alias if the table is a name, resolved in the same way where it is
declared and where it is written. A subquery, or a table of several words, stands as it is. -/
theorem findByKey_introduces {data : KeyData} {st : Statement}
    (hst : (d.findByKey data).1 = .ok st) :
    ∃ first cs doc table tables rest, d.normalize.1 = .ok first ∧
      d.settings.key.conditions data = .ok cs ∧
      doc = oneRow (first.putConditions d.settings.tablePrefix cs) ∧ st = d.build doc ∧
      doc.tables = table :: tables ∧
      let s := doc.scope d.renderer
      let declared := TableName.expand d.settings.tablePrefix table
      let written := TableName.expand d.renderer.tablePrefix table
      st.sql = doc.opening d.renderer ++ Text.join "," (s.table table :: tables.map s.table) ++
        rest ∧
      ∀ a, doc.mainAlias? d.settings.tablePrefix = some a →
        (∀ c ∈ cs, .field (a ++ "." ++ c.1) [c.2] ∈ Filter.entries .and doc.filter) ∧
        (Scope.isOpaqueTable written = false → declared = written →
          s.table table = s.tableAs table a) ∧
        (Scope.isOpaqueTable written = true → s.table table = written) ∧
        (d.renderer.dialect = .generic → (s.table table = s.tableAs table a ↔
          Scope.isOpaqueTable written = false ∧ s.aliases.get? written = some a)) := by
  obtain ⟨first, cs, hfirst, hcs, rfl⟩ := exists_of_findByKey hst
  obtain ⟨table, tables, htables⟩ := exists_mainTable_of_finished (finished_of_normalize hfirst)
  let doc := oneRow (first.putConditions d.settings.tablePrefix cs)
  -- the key changes neither the tables nor their aliases
  have hdoc : doc.tables = table :: tables := htables
  obtain ⟨rest, hsql⟩ := doc.exists_sql_render d.renderer
  refine ⟨first, cs, doc, table, tables,
    doc.clauseText d.renderer .forced ++ doc.clauseText d.renderer .joins ++ rest,
    hfirst, hcs, rfl, rfl, hdoc, ?_, fun a ha => ?_⟩
  · have hfrom : doc.clauseText d.renderer .tables =
        Text.join "," ((table :: tables).map (doc.scope d.renderer).table) := by
      rw [Document.clauseText, hdoc]
    rw [sql_build, hsql, hfrom, List.map_cons]
    simp only [String.append_assoc]
  · have hkept : doc.aliases.get? (TableName.expand d.settings.tablePrefix table) = some a := by
      rwa [Document.mainAlias?, Document.mainTable?, hdoc, List.head?_cons,
        Option.bind_some] at ha
    refine ⟨fun c hc => ?_, fun hname hresolved => ?_, fun hwhole => ?_, fun hgeneric => ?_⟩
    · have hmem := first.mem_entries_putConditions d.settings.tablePrefix
        (fun a ha b hb => PrimaryKey.conditions_unique hcs ha hb) hc
      have hentry : first.keyEntry d.settings.tablePrefix c =
          .field (a ++ "." ++ c.1) [c.2] := by
        have ha' : first.mainAlias? d.settings.tablePrefix = some a := ha
        rw [Document.keyEntry, Document.qualifyKey, ha']
        rfl
      rwa [hentry] at hmem
    · rw [hresolved] at hkept
      exact Scope.table_of_alias hname hkept
    · exact Scope.table_of_isOpaqueTable hwhole
    · exact Scope.table_eq_tableAs_iff hgeneric

/-- A query on a subquery that was given an alias. -/
def derivedSample : Draft :=
  (Call.runAll ⟨.new {}, none⟩
    [.declare (.tables (.text "(SELECT 1)")), .declare (.«alias» "a")]).1.draft

/-- The alias is not introduced, and the column of the key is named by it. -/
theorem findByKey_introduces_derivedSample :
    ∃ st : Statement, (derivedSample.findByKey (.scalar (.int 5))).1 = .ok st ∧
      st.sql = "SELECT * FROM (SELECT 1) WHERE a.id = ? LIMIT 1" ∧
      ∃ (doc : Document) (rest : String),
        st.sql = doc.opening derivedSample.renderer ++ "(SELECT 1)" ++ rest ∧
        doc.mainAlias? derivedSample.settings.tablePrefix = some "a" ∧
        .field "a.id" [.compare .eq (.int 5)] ∈ Filter.entries .and doc.filter := by
  obtain ⟨st, hst⟩ : ∃ st : Statement, (derivedSample.findByKey (.scalar (.int 5))).1 = .ok st :=
    ⟨_, rfl⟩
  obtain ⟨first, cs, doc, table, tables, rest, hfirst, hcs, hdoc, hbuild, htables, hsql, halias⟩ :=
    findByKey_introduces hst
  obtain rfl : derivedSample.document = first := Except.ok.inj hfirst
  obtain rfl : [("id", .compare .eq (.int 5))] = cs := Except.ok.inj hcs
  -- the alias was declared last, and neither the key nor the single row changes it
  have hlast : derivedSample.document.mainAlias? derivedSample.settings.tablePrefix = some "a" :=
    mainAlias?_of_alias (d := (new {}).declare (.tables (.text "(SELECT 1)")))
      (finished_of_normalize hfirst)
  have hmain : doc.mainAlias? derivedSample.settings.tablePrefix = some "a" := by
    rw [hdoc]
    exact hlast
  obtain ⟨rfl, rfl⟩ : "(SELECT 1)" = table ∧ [] = tables := by
    rw [hdoc] at htables
    exact List.cons.inj htables
  have hwritten : TableName.expand derivedSample.renderer.tablePrefix "(SELECT 1)" = "(SELECT 1)" :=
    by decide +kernel
  obtain ⟨hkey, -, hwhole, -⟩ := halias "a" hmain
  rw [hwritten] at hwhole
  refine ⟨st, hst, ?_, doc, rest, ?_, hmain, hkey _ List.mem_cons_self⟩
  · rw [hbuild, hdoc]
    decide +kernel
  · rw [hsql, List.map_nil, Text.join_singleton, hwhole (by decide +kernel)]

example : ∃ st : Statement, ((Call.runAll ⟨.new { tablePrefix := "p_", dialect := .mysql }, none⟩
      [.declare (.tables (.text "__USER__ u"))]).1.draft.findByKey (.scalar (.int 5))).1 = .ok st ∧
    st.sql = "SELECT * FROM `p_user` `u` WHERE `u`.`id` = ? LIMIT 1" :=
  ⟨_, rfl, by decide +kernel⟩

end Draft

end SqlSelect
