import SqlSelect.Call
import SqlSelect.Proofs.Closing
import SqlSelect.Proofs.Selection.Tree

/-!
# Which rows a search by key selects

The key condition is put among the entries under `AND`. How much it has to say then depends on
where that branch stands: each connective with entries makes a group, and the groups are joined in
the order in which the connectives were first used.

* `PrimaryKey.conditions_unique`, `Document.mem_entries_putConditions`: what the key demands, and
  where it is put;
* `Branch.truths`, `Values.line`: the truth of each group, and of groups in a line;
* `Document.hasKey`, `Document.lineWithoutAnd`: does a row have the key, and is the line true of it
  without the group in which the key stands;
* `Draft.findByKey_selects`: which rows pass the WHERE clause of a search by key;
* `Draft.findByKey_selects_other_row`: behind `AND`, a group under `OR` selects other rows.
-/

namespace SqlSelect

/-! ### Where the key condition is put -/

namespace Filter

variable {k : Connective} {name : String} {cs : List Condition} {e : Entry} {es : List Entry}
  {bs : List Branch}

theorem mem_putFieldEntry (name : String) (cs : List Condition) (es : List Entry) :
    .field name cs ∈ putFieldEntry name cs es := by
  fun_induction putFieldEntry name cs es with
  | case1 => exact List.mem_cons_self
  | case2 => exact List.mem_cons_self
  | case3 ds es n hne ih => exact List.mem_cons_of_mem _ ih
  | case4 e es hne ih => exact List.mem_cons_of_mem _ ih

/-- What is put in is there. -/
theorem mem_entries_putField (k : Connective) (name : String) (cs : List Condition)
    (bs : List Branch) : .field name cs ∈ entries k (putField k name cs bs) := by
  rw [entries_putField_self]
  exact mem_putFieldEntry name cs _

/-- Entries of other names stay. -/
theorem mem_putFieldEntry_of_ne {n : String} {ds : List Condition} (hne : n ≠ name)
    (h : .field n ds ∈ es) : .field n ds ∈ putFieldEntry name cs es := by
  fun_induction putFieldEntry name cs es with
  | case1 => exact absurd h List.not_mem_nil
  | case2 ds' es =>
    rcases List.mem_cons.1 h with heq | h
    · cases heq
      exact absurd rfl hne
    · exact List.mem_cons_of_mem _ h
  | case3 ds' es m hm ih =>
    rcases List.mem_cons.1 h with heq | h
    · rw [heq]
      exact List.mem_cons_self
    · exact List.mem_cons_of_mem _ (ih h)
  | case4 e es he ih =>
    rcases List.mem_cons.1 h with heq | h
    · rw [heq]
      exact List.mem_cons_self
    · exact List.mem_cons_of_mem _ (ih h)

/-- The branches in front of the first branch of a connective. -/
def before (k : Connective) (bs : List Branch) : List Branch :=
  bs.takeWhile fun b => b.connective != k

/-- The branches behind the first branch of a connective. -/
def behind (k : Connective) (bs : List Branch) : List Branch :=
  (bs.dropWhile fun b => b.connective != k).tail

/-- The entries under a connective are those of its first branch. -/
theorem eq_of_mem_entries (h : e ∈ entries k bs) :
    bs = before k bs ++ ⟨k, entries k bs⟩ :: behind k bs := by
  induction bs with
  | nil => exact absurd h List.not_mem_nil
  | cons b bs ih =>
    obtain ⟨j, es⟩ := b
    by_cases hj : j = k
    · subst hj
      simp [before, behind, entries]
    · have hne : (j != k) = true := bne_iff_ne.2 hj
      have hentries : entries k (⟨j, es⟩ :: bs) = entries k bs := by
        simp [entries, hj]
      rw [hentries] at h ⊢
      have hbefore : before k (⟨j, es⟩ :: bs) = ⟨j, es⟩ :: before k bs := by
        simp [before, hne]
      have hbehind : behind k (⟨j, es⟩ :: bs) = behind k bs := by
        simp [behind, hne]
      rw [hbefore, hbehind, List.cons_append, ← ih h]

end Filter

/-- A computation for each member of a list gives its results one by one. -/
theorem forall₂_of_mapM_eq_ok {ε α β : Type} {f : α → Except ε β} {as : List α} {bs : List β}
    (h : as.mapM f = .ok bs) : List.Forall₂ (fun a b => f a = .ok b) as bs := by
  induction as generalizing bs with
  | nil =>
    rw [List.mapM_nil] at h
    cases h
    exact .nil
  | cons a as ih =>
    rw [List.mapM_cons] at h
    obtain ⟨b, hb, h⟩ := exists_of_bind_eq_ok h
    obtain ⟨cs, hcs, h⟩ := exists_of_bind_eq_ok h
    cases h
    exact .cons hb (ih hcs)

namespace PrimaryKey

variable {key : PrimaryKey} {data : KeyData} {cs : List (String × Condition)}

/-- A composite key demands of a column that it has the value given for it. -/
theorem lookup?_of_mem {columns : List String} (h : (composite columns).conditions data = .ok cs)
    {c : String × Condition} (hc : c ∈ cs) : ∃ v, data.lookup? c.1 = some v ∧ c.2 = .eq v := by
  have hall := forall₂_of_mapM_eq_ok h
  clear h
  induction hall with
  | nil => exact absurd hc List.not_mem_nil
  | @cons column d columns cs hd _ ih =>
    rcases List.mem_cons.1 hc with rfl | hc
    · cases hlookup : data.lookup? column with
      | none =>
        rw [hlookup] at hd
        cases hd
      | some v =>
        rw [hlookup] at hd
        cases hd
        exact ⟨v, hlookup, rfl⟩
    · exact ih hc

/-- A key demands one thing of a column. -/
theorem conditions_unique (h : key.conditions data = .ok cs) {a b : String × Condition}
    (ha : a ∈ cs) (hb : b ∈ cs) (hab : a.1 = b.1) : a.2 = b.2 := by
  cases key with
  | single column =>
    cases h
    rw [List.mem_singleton.1 ha, List.mem_singleton.1 hb]
  | composite columns =>
    obtain ⟨v, hv, ha⟩ := lookup?_of_mem h ha
    obtain ⟨w, hw, hb⟩ := lookup?_of_mem h hb
    rw [hab, hw] at hv
    rw [ha, hb, Option.some.inj hv]

theorem conditions_ne_nil (hkey : key ≠ .composite []) (h : key.conditions data = .ok cs) :
    cs ≠ [] := by
  rintro rfl
  cases key with
  | single column => cases h
  | composite columns =>
    have hcolumns : columns = [] := List.forall₂_nil_right_iff.1 (forall₂_of_mapM_eq_ok h)
    exact hkey (by rw [hcolumns])

end PrimaryKey

namespace Document

/-- Columns keep apart. -/
theorem qualifyKey_injective (pre : String) (d : Document) :
    Function.Injective (d.qualifyKey pre) := by
  intro a b h
  unfold qualifyKey at h
  cases hmain : d.mainAlias? pre with
  | none =>
    rw [hmain] at h
    exact h
  | some short =>
    rw [hmain] at h
    exact (String.append_right_inj (short ++ ".")).1 h

/-- The entry that demands something of a column of the key. -/
def keyEntry (pre : String) (d : Document) (c : String × Condition) : Entry :=
  .field (d.qualifyKey pre c.1) [c.2]

/-- What the key demands is put among the entries under `AND`. -/
theorem mem_entries_putConditions (pre : String) (d : Document) {cs : List (String × Condition)}
    (hcs : ∀ a ∈ cs, ∀ b ∈ cs, a.1 = b.1 → a.2 = b.2) {c : String × Condition} (hc : c ∈ cs) :
    d.keyEntry pre c ∈ Filter.entries .and (d.putConditions pre cs).filter := by
  let put (bs : List Branch) (c : String × Condition) : List Branch :=
    Filter.putField .and (d.qualifyKey pre c.1) [c.2] bs
  -- once it is there, it stays: other columns have other names
  have hkeep : ∀ (ds : List (String × Condition)) (bs : List Branch),
      (∀ b ∈ ds, b.1 = c.1 → b.2 = c.2) → d.keyEntry pre c ∈ Filter.entries .and bs →
      d.keyEntry pre c ∈ Filter.entries .and (ds.foldl put bs) := by
    intro ds
    induction ds with
    | nil => exact fun _ _ h => h
    | cons b ds ih =>
      intro bs hds h
      obtain ⟨hb, hds⟩ := List.forall_mem_cons.1 hds
      refine ih _ hds ?_
      by_cases hname : b.1 = c.1
      · have heq : d.keyEntry pre c = .field (d.qualifyKey pre b.1) [b.2] := by
          rw [keyEntry, hname, hb hname]
        rw [heq]
        exact Filter.mem_entries_putField _ _ _ _
      · rw [Filter.entries_putField_self]
        exact Filter.mem_putFieldEntry_of_ne
          (fun heq => hname (d.qualifyKey_injective pre heq).symm) h
  obtain ⟨front, back, rfl⟩ := List.append_of_mem hc
  show _ ∈ Filter.entries .and ((front ++ c :: back).foldl put d.filter)
  rw [List.foldl_append, List.foldl_cons]
  refine hkeep back _ (fun b hb hname => hcs b (by simp [hb]) c (by simp) hname) ?_
  exact Filter.mem_entries_putField _ _ _ _

end Document

/-! ### Which rows pass -/

variable (row : Row) (s : Scope)

/-- Does the row pass the entry? Nothing is demanded by an entry without text. -/
def Entry.passes (e : Entry) : Bool := ((e.term s).map (Term.truth row)).getD true

/-- The truth of each branch that has entries with text. -/
def Branch.truths (bs : List Branch) : List (Connective × Bool) :=
  (Branch.clauses s bs).map fun c => (c.1, c.2.truth row)

/-- The truth of groups in a line, each behind its own connective but for the first one. -/
def Values.line : List (Connective × Bool) → Bool
  | [] => true
  | (_, b) :: rest => truth ⟨b, rest⟩

/-- Does the row pass the soft delete of the document, if there is one? -/
def Document.passesSoft (r : Renderer) (d : Document) : Bool :=
  d.softDelete.all fun soft => (soft.term (d.scope r)).truth row

variable {row s}

/-- A column that is no more than one field. -/
theorem Entry.passes_field {name : String} (h : Name.fanOut? name = none) (c : Condition) :
    Entry.passes row s (.field name [c]) = row (c.render s (s.key name)) := by
  have hterm : Entry.term s (.field name [c]) = some (.atom (c.render s (s.key name))) := by
    rw [Entry.term, fieldTerm, h]
    rfl
  rw [passes, hterm]
  rfl

/-- A row passes some entries if their trees are true of it. -/
theorem Entry.all_terms (es : List Entry) :
    (Entry.terms s es).all (Term.truth row) = es.all fun e => e.passes row s := by
  induction es with
  | nil => rfl
  | cons e es ih =>
    rw [terms, List.all_append, ih, List.all_cons, passes]
    cases e.term s with
    | none => rfl
    | some t => simp

theorem Entry.terms_ne_nil {e : Entry} {es : List Entry} (he : e ∈ es) (hterm : (e.term s).isSome) :
    Entry.terms s es ≠ [] := by
  intro hnil
  induction es with
  | nil => exact List.not_mem_nil he
  | cons f es ih =>
    obtain ⟨hf, hes⟩ := List.append_eq_nil_iff.1 hnil
    rcases List.mem_cons.1 he with rfl | he
    · rw [Option.toList_eq_nil_iff.1 hf] at hterm
      cases hterm
    · exact ih he hes

namespace Branch

theorem clauses_append (bs cs : List Branch) :
    clauses s (bs ++ cs) = clauses s bs ++ clauses s cs := by
  induction bs with
  | nil => rfl
  | cons b bs ih =>
    obtain ⟨k, es⟩ := b
    rw [List.cons_append, clauses, clauses, ih]
    cases Entry.terms s es <;> rfl

/-- A branch under `AND` that has entries with text makes a clause, and a row must pass each of
them. -/
theorem exists_clauses_and (front back : List Branch) {es : List Entry}
    (hes : Entry.terms s es ≠ []) :
    ∃ c, clauses s (front ++ ⟨.and, es⟩ :: back) =
        clauses s front ++ (.and, c) :: clauses s back ∧
      ∀ row, c.truth row = es.all fun e => e.passes row s := by
  obtain ⟨t, ts, hterms⟩ := List.exists_cons_of_ne_nil hes
  refine ⟨.joined .and t ts, ?_, fun row => ?_⟩
  · rw [clauses_append, clauses, hterms]
  · rw [Clause.truth_joined_and, ← hterms, Entry.all_terms]

end Branch

/-- A false last group under `AND` makes the line false, if there is at most one other in front. -/
theorem Values.line_and_false {front : List (Connective × Bool)} (h : front.length ≤ 1) :
    line (front ++ [(.and, false)]) = false := by
  match front, h with
  | [], _ => rfl
  | [(k, b)], _ => exact Bool.and_false b

namespace Document

variable {r : Renderer} {d : Document}

/-- A row passes the WHERE clause if the line of its groups is true of it and it passes the soft
delete. -/
theorem truth_clause (h : Branch.clauses (d.scope r) d.filter ≠ []) :
    ∃ c, d.clause r = some c ∧ ∀ row, c.truth row =
      (Values.line (Branch.truths row (d.scope r) d.filter) && d.passesSoft row r) := by
  obtain ⟨⟨k, c⟩, cs, hclauses⟩ := List.exists_cons_of_ne_nil h
  obtain ⟨body, hbody, htruth⟩ := Clause.exists_several k c cs
  have hline : ∀ row, body.truth row =
      Values.line (Branch.truths row (d.scope r) d.filter) := by
    intro row
    rw [htruth, Branch.truths, hclauses]
    rfl
  unfold clause
  rw [hclauses, hbody]
  cases hsoft : d.softDelete with
  | none =>
    refine ⟨body, rfl, fun row => ?_⟩
    rw [hline, passesSoft, hsoft]
    exact (Bool.and_true _).symm
  | some soft =>
    refine ⟨_, rfl, fun row => ?_⟩
    rw [Clause.truth_joined_and, ← hline, passesSoft, hsoft]
    simp [Term.truth, Clause.truth]

/-- The WHERE clause stands somewhere in the statement. -/
theorem exists_render_filter (r : Renderer) (d : Document) :
    ∃ before after, d.render r = before ++ (d.renderClause r .filter ++ after) := by
  have hsplit : Layout.select = Layout.select.take 8 ++ Layout.select.drop 8 := rfl
  rw [render_eq_fill, hsplit, Layout.fill, List.flatMap_append]
  exact ⟨_, _, rfl⟩

end Document

/-- A row has the key if it passes what the key demands of each column. -/
def Document.hasKey (row : Row) (r : Renderer) (pre : String) (cs : List (String × Condition))
    (d : Document) : Bool :=
  cs.all fun c => (d.keyEntry pre c).passes row (d.scope r)

/-- The line of the groups of a document in which the one under `AND` is false. -/
def Document.lineWithoutAnd (row : Row) (r : Renderer) (d : Document) : Bool :=
  Values.line (Branch.truths row (d.scope r) (Filter.before .and d.filter) ++
    (.and, false) :: Branch.truths row (d.scope r) (Filter.behind .and d.filter))

/-- If what a key demands is among the entries under `AND`, then the group of these is false of a
row without the key, and only the others can let it pass. -/
theorem Document.exists_clause_of_key {d : Document} {pre : String}
    {cs : List (String × Condition)} (hcs : cs ≠ [])
    (hmem : ∀ c ∈ cs, d.keyEntry pre c ∈ Filter.entries .and d.filter) (r : Renderer) :
    ∃ clause, d.clause r = some clause ∧ ∀ row, d.hasKey row r pre cs = false →
      clause.truth row = (d.lineWithoutAnd row r && d.passesSoft row r) := by
  -- the branch under `AND` has an entry, for the key has a column
  obtain ⟨c, hc⟩ := List.exists_mem_of_ne_nil cs hcs
  have hfilter := Filter.eq_of_mem_entries (hmem c hc)
  obtain ⟨group, hclauses, hgroup⟩ := Branch.exists_clauses_and (s := d.scope r)
    (Filter.before .and d.filter) (Filter.behind .and d.filter)
    (Entry.terms_ne_nil (hmem c hc) rfl)
  rw [← hfilter] at hclauses
  have hsome : Branch.clauses (d.scope r) d.filter ≠ [] := by simp [hclauses]
  obtain ⟨clause, hclause, htruth⟩ := truth_clause hsome
  refine ⟨clause, hclause, fun row hno => ?_⟩
  obtain ⟨e, he, hfails⟩ := List.all_eq_false.1 hno
  have hfalse : group.truth row = false := by
    rw [hgroup]
    exact List.all_eq_false.2 ⟨_, hmem e he, hfails⟩
  rw [htruth, Branch.truths, hclauses, List.map_append, List.map_cons, hfalse]
  rfl

/-- Nothing is left of the line if the group under `AND` is the last one, with at most one other
group in front. -/
theorem Document.lineWithoutAnd_eq_false {d : Document} {r : Renderer}
    (hfront : (Branch.clauses (d.scope r) (Filter.before .and d.filter)).length ≤ 1)
    (hback : Branch.clauses (d.scope r) (Filter.behind .and d.filter) = []) (row : Row) :
    d.lineWithoutAnd row r = false := by
  have hnil : Branch.truths row (d.scope r) (Filter.behind .and d.filter) = [] := by
    rw [Branch.truths, hback, List.map_nil]
  rw [lineWithoutAnd, hnil]
  exact Values.line_and_false (by rwa [Branch.truths, List.length_map])

/-! ### Searches by key -/

theorem Draft.exists_of_findByKey {d : Draft} {data : KeyData} {st : Statement}
    (h : (d.findByKey data).1 = .ok st) :
    ∃ (first : Document) (cs : List (String × Condition)),
      d.normalize.1 = .ok first ∧ d.settings.key.conditions data = .ok cs ∧
      st = d.build (oneRow (first.putConditions d.settings.tablePrefix cs)) := by
  obtain ⟨first, hfirst, h⟩ := exists_of_bind_eq_ok h
  obtain ⟨doc, hrequire, h⟩ := exists_of_bind_eq_ok h
  cases h
  unfold Document.requireKey at hrequire
  cases hcs : d.settings.key.conditions data with
  | error e =>
    rw [hcs] at hrequire
    cases hrequire
  | ok cs =>
    rw [hcs] at hrequire
    cases hrequire
    exact ⟨first, cs, hfirst, rfl, rfl⟩

/-- Which rows a search by key selects. Only rows with the key, if the group under `AND`, where the
key is put, is the last one with at most one other group in front. Else those rows without the key
are selected as well for which the groups in a line are true although the one under `AND` is not,
and which pass the soft delete. -/
theorem Draft.findByKey_selects {d : Draft} {data : KeyData} {st : Statement}
    (hkey : d.settings.key ≠ .composite []) (hst : (d.findByKey data).1 = .ok st) :
    ∃ first cs doc, d.normalize.1 = .ok first ∧ d.settings.key.conditions data = .ok cs ∧
      doc = oneRow (first.putConditions d.settings.tablePrefix cs) ∧ st = d.build doc ∧
      ∃ clause before after, doc.clause d.renderer = some clause ∧
        doc.render d.renderer = before ++ (.text " WHERE " :: clause.write ++ after) ∧
        ∀ row, ∃ selected, Reader.read row clause.segments = some selected ∧
          ((Branch.clauses (doc.scope d.renderer) (Filter.before .and doc.filter)).length ≤ 1 →
            Branch.clauses (doc.scope d.renderer) (Filter.behind .and doc.filter) = [] →
            selected = true → doc.hasKey row d.renderer d.settings.tablePrefix cs = true) ∧
          (doc.hasKey row d.renderer d.settings.tablePrefix cs = false →
            selected = (doc.lineWithoutAnd row d.renderer && doc.passesSoft row d.renderer)) := by
  obtain ⟨first, cs, hfirst, hcs, rfl⟩ := exists_of_findByKey hst
  let doc := oneRow (first.putConditions d.settings.tablePrefix cs)
  have hmem : ∀ c ∈ cs, doc.keyEntry d.settings.tablePrefix c ∈ Filter.entries .and doc.filter :=
    fun c hc => first.mem_entries_putConditions d.settings.tablePrefix
      (fun a ha b hb => PrimaryKey.conditions_unique hcs ha hb) hc
  obtain ⟨clause, hclause, hother⟩ := Document.exists_clause_of_key
    (PrimaryKey.conditions_ne_nil hkey hcs) hmem d.renderer
  obtain ⟨before, after, hrender⟩ := doc.exists_render_filter d.renderer
  rw [Document.renderClause_filter, hclause] at hrender
  refine ⟨first, cs, doc, hfirst, hcs, rfl, rfl, clause, before, after, hclause, hrender,
    fun row => ⟨clause.truth row, clause.read_segments row, ?_, hother row⟩⟩
  intro hfront hback hselected
  by_contra hno
  rw [hother row (Bool.not_eq_true _ ▸ hno), Document.lineWithoutAnd_eq_false hfront hback,
    Bool.false_and] at hselected
  exact Bool.false_ne_true hselected

/-- A query on a table with an alias and a soft delete, with conditions under `OR` and then under
`AND`. -/
def Draft.keySample : Draft :=
  (Call.runAll ⟨.new {}, none⟩
    [.declare (.tables (.text "t u")), .declare (.softDelete "x" .isNull),
      .require .or (.is "b" (.value (.int 2))), .require .or (.raw "c = 3 OR d = 4" []),
      .require .and (.is "a" (.value (.int 1)))]).1.draft

/-- The document of a search by two keys. -/
def Document.keySample : Document :=
  Draft.oneRow (Draft.keySample.document.putConditions ""
    [("id", .inList [.text "4", .text "5"] false)])

/-- All rows that the search selects have one of the keys. -/
theorem Draft.findByKey_selects_keySample :
    keySample.settings.key ≠ .composite [] ∧
      (keySample.findByKey (.scalar (.text "4, 5"))).1 = .ok (keySample.build .keySample) ∧
      (keySample.build .keySample).sql =
        "SELECT * FROM t u WHERE ((b = ? OR (c = 3 OR d = 4)) AND (a = ? AND u.id IN (?,?))) " ++
          "AND x IS NULL LIMIT 1" ∧
      ∃ clause before after, Document.keySample.clause keySample.renderer = some clause ∧
        Document.keySample.render keySample.renderer =
          before ++ (.text " WHERE " :: clause.write ++ after) ∧
        ∀ row, Reader.read row clause.segments = some true →
          row (renderMembers "u.id" [.text "4", .text "5"] false) = true := by
  have hkey : keySample.settings.key ≠ .composite [] := by
    show PrimaryKey.single "id" ≠ .composite []
    simp
  have hst : (keySample.findByKey (.scalar (.text "4, 5"))).1 = .ok (keySample.build .keySample) :=
    by rfl
  obtain ⟨first, cs, doc, hfirst, hcs, hdoc, -, clause, before, after, hclause, hrender, hrows⟩ :=
    Draft.findByKey_selects hkey hst
  obtain rfl : keySample.document = first := Except.ok.inj hfirst
  obtain rfl : [("id", .inList [.text "4", .text "5"] false)] = cs := Except.ok.inj hcs
  obtain rfl : doc = .keySample := hdoc
  refine ⟨hkey, hst, by decide +kernel, clause, before, after, hclause, hrender,
    fun row hread => ?_⟩
  obtain ⟨selected, hselected, hhas, -⟩ := hrows row
  have htrue : selected = true := Option.some.inj (hselected.symm.trans hread)
  have hall := hhas (by decide +kernel) rfl htrue
  -- the column is named by the alias of the table
  have hname : Document.keySample.qualifyKey keySample.settings.tablePrefix "id" = "u.id" := by
    decide +kernel
  have hwritten : Scope.key (Document.keySample.scope keySample.renderer) "u.id" = "u.id" := by
    decide +kernel
  have hpasses := List.all_eq_true.1 hall _ List.mem_cons_self
  dsimp only [Document.keyEntry] at hpasses
  rw [hname, Entry.passes_field (by decide), hwritten] at hpasses
  exact hpasses

/-- A query with a condition under `AND` and another one under `OR`. -/
def Draft.orSample : Draft :=
  (Call.runAll ⟨.new {}, none⟩
    [.declare (.tables (.text "t")), .require .and (.is "a" (.value (.int 1))),
      .require .or (.is "b" (.value (.int 2)))]).1.draft

/-- The document of a search by one key. -/
def Document.orSample : Document :=
  Draft.oneRow (Draft.orSample.document.putConditions "" [("id", .eq (.int 5))])

/-- A row without the key is selected for the condition under `OR`. -/
theorem Draft.findByKey_selects_other_row :
    orSample.select.1 = .ok (orSample.build orSample.document) ∧
      orSample.settings.key.conditions (.scalar (.int 5)) = .ok [("id", .eq (.int 5))] ∧
      (orSample.findByKey (.scalar (.int 5))).1 = .ok (orSample.build .orSample) ∧
      (orSample.build .orSample).sql =
        "SELECT * FROM t WHERE (a = ? AND id = ?) OR (b = ?) LIMIT 1" ∧
      ∃ clause before after, ∃ row : Row,
        Document.orSample.clause orSample.renderer = some clause ∧
        Document.orSample.render orSample.renderer =
          before ++ (.text " WHERE " :: clause.write ++ after) ∧
        Reader.read row clause.segments = some true ∧
        Document.orSample.hasKey row orSample.renderer orSample.settings.tablePrefix
          [("id", .eq (.int 5))] = false := by
  refine ⟨by rfl, by rfl, by rfl, by decide +kernel, ?_⟩
  have hsome : Branch.clauses (Document.orSample.scope orSample.renderer)
      Document.orSample.filter ≠ [] := List.ne_nil_of_length_pos (by decide +kernel)
  obtain ⟨clause, hclause, htruth⟩ := Document.truth_clause hsome
  obtain ⟨before, after, hrender⟩ := Document.orSample.exists_render_filter orSample.renderer
  rw [Document.renderClause_filter, hclause] at hrender
  refine ⟨clause, before, after, fun f => f.sql = "b = ?", hclause, hrender, ?_,
    by decide +kernel⟩
  rw [Clause.read_segments, htruth]
  decide +kernel

end SqlSelect
