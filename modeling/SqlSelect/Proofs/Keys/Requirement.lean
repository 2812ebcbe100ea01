import SqlSelect.Proofs.Backticks.Names
import SqlSelect.Proofs.Selection.Key

/-!
# The condition that a primary key is given

What is to come of adding the key condition to a saved document, told from the key and the data
alone, and that it does come of it.

* `KeyData.Gives`, `KeyData.Lacks`: the first value that the data have for a column, or that they
  have none;
* `PrimaryKey.Demands`: what is demanded of a column of the key;
* `Document.NamesKey`: how a column of the key is named in the document;
* `Filter.Puts`, `Document.Resolves`, `Filter.Changes`: what becomes of the entries of a connective,
  and of the branches;
* `Call.run_requireKey`: when the condition is added, and what it leaves as it was.
-/

namespace SqlSelect

/-! ### What the data say -/

namespace KeyData

/-- The data are values by column, and the first one for the column is `v`. -/
def Gives (data : KeyData) (column : String) (v : Value) : Prop :=
  ∃ front back, data = .map (front ++ (column, v) :: back) ∧ ∀ e ∈ front, e.1 ≠ column

/-- There is no value for the column. Only values by column can be for one. -/
def Lacks (data : KeyData) (column : String) : Prop :=
  ∀ entries, data = .map entries → ∀ e ∈ entries, e.1 ≠ column

variable {data : KeyData} {column : String} {v : Value}

theorem gives_iff : data.Gives column v ↔ data.lookup? column = some v := by
  cases data with
  | scalar w => exact iff_of_false (fun ⟨_, _, h, _⟩ => nomatch h) (Option.some_ne_none v).symm
  | list vs => exact iff_of_false (fun ⟨_, _, h, _⟩ => nomatch h) (Option.some_ne_none v).symm
  | map entries =>
    have hlookup : (map entries).lookup? column = some v ↔ ∃ front back,
        entries = front ++ (column, v) :: back ∧ ∀ e ∈ front, (column != e.1) = true :=
      List.lookup_eq_some_iff
    rw [hlookup]
    simp only [Gives, map.injEq, bne_iff_ne, ne_comm]

theorem lacks_iff : data.Lacks column ↔ data.lookup? column = none := by
  cases data with
  | scalar w => exact iff_of_true (fun _ h => nomatch h) rfl
  | list vs => exact iff_of_true (fun _ h => nomatch h) rfl
  | map entries =>
    have hlookup : (map entries).lookup? column = none ↔ ∀ e ∈ entries, (column != e.1) = true :=
      List.lookup_eq_none_iff
    rw [hlookup]
    simp only [Lacks, map.injEq, bne_iff_ne, ne_comm, forall_eq']

theorem Gives.not_lacks (h : data.Gives column v) : ¬data.Lacks column := by
  rw [gives_iff] at h
  rw [lacks_iff, h]
  exact Option.some_ne_none v

end KeyData

/-! ### What the key demands -/

namespace PrimaryKey

/-- The columns of a key, in order. -/
def columns : PrimaryKey → List String
  | single column => [column]
  | composite columns => columns

/-- The key is a composite one, and there is no value for one of its columns. -/
def IsUnmet (key : PrimaryKey) (data : KeyData) : Prop :=
  ∃ columns, key = composite columns ∧ ∃ column ∈ columns, data.Lacks column

/-- What is demanded of a column of the key. -/
inductive Demands : PrimaryKey → KeyData → String → Condition → Prop
  /-- A column of several has the value given for it. -/
  | part {columns : List String} {data : KeyData} {column : String} {v : Value} :
      data.Gives column v → Demands (composite columns) data column (.eq v)
  | value {column : String} {v : Value} :
      (∀ s, v = .text s → ',' ∉ s.toList) → Demands (single column) (.scalar v) column (.eq v)
  /-- A text with commas stands for what is between them. -/
  | texts {column s : String} {parts : List String} :
      ',' ∈ s.toList → Text.join "," parts = s → (∀ p ∈ parts, ',' ∉ p.toList) →
      Demands (single column) (.scalar (.text s)) column
        (.inList (parts.map fun p => .text (Text.trim p)) false)
  | list {column : String} {vs : List Value} :
      Demands (single column) (.list vs) column (.inList vs false)
  | named {column : String} {data : KeyData} {v : Value} :
      data.Gives column v → Demands (single column) data column (.eq v)
  /-- Values by other columns are taken as a list. -/
  | unnamed {column : String} {entries : List (String × Value)} :
      (KeyData.map entries).Lacks column →
      Demands (single column) (.map entries) column (.inList (entries.map Prod.snd) false)

end PrimaryKey

/-- Between two separators there is none. -/
theorem Chars.not_of_mem_splitWhere {p : Char → Bool} {w cs : List Char}
    (hw : w ∈ splitWhere p cs) :
    ∀ c ∈ w, p c = false := by
  induction cs generalizing w with
  | nil =>
    rw [splitWhere, List.mem_singleton] at hw
    simp [hw]
  | cons c cs ih =>
    rw [splitWhere] at hw
    split at hw
    · rcases List.mem_cons.1 hw with rfl | hw
      · simp
      · exact ih hw
    · next hc =>
      cases hs : splitWhere p cs with
      | nil => exact absurd hs (splitWhere_ne_nil p cs)
      | cons v vs =>
        rw [hs] at hw ih
        rcases List.mem_cons.1 hw with rfl | hw
        · exact List.forall_mem_cons.2 ⟨by simpa using hc, ih List.mem_cons_self⟩
        · exact ih (List.mem_cons_of_mem _ hw)

theorem Text.not_mem_of_mem_splitOn {sep : Char} {s part : String} (h : part ∈ splitOn sep s) :
    sep ∉ part.toList := by
  obtain ⟨w, hw, rfl⟩ := List.mem_map.1 h
  rw [String.toList_ofList]
  intro hsep
  exact absurd (Chars.not_of_mem_splitWhere hw sep hsep) (by simp)

namespace PrimaryKey

variable {key : PrimaryKey} {data : KeyData} {cs : List (String × Condition)}

/-- What is demanded of the column of a simple key. -/
theorem demands_condition (column : String) (data : KeyData) :
    Demands (single column) data column (data.condition column) := by
  cases data with
  | scalar v =>
    cases v with
    | text s =>
      rw [KeyData.condition, Value.listed]
      split
      · next hcomma =>
        exact .texts (by simpa [Text.has] using hcomma) (Text.join_splitOn ',' s)
          fun p hp => Text.not_mem_of_mem_splitOn hp
      · next hcomma =>
        refine .value fun t ht => ?_
        cases ht
        simpa [Text.has] using hcomma
    | _ => exact .value fun s hs => nomatch hs
  | list vs => exact .list
  | map entries =>
    rw [KeyData.condition]
    cases hlookup : entries.lookup column with
    | some v => exact .named (KeyData.gives_iff.2 hlookup)
    | none => exact .unnamed (KeyData.lacks_iff.2 hlookup)

/-- If the key condition can be stated, then it demands something of each column. -/
theorem demands_of_conditions (h : key.conditions data = .ok cs) :
    List.Forall₂ (fun column c => c.1 = column ∧ key.Demands data column c.2) key.columns cs := by
  cases key with
  | single column =>
    cases h
    exact .cons ⟨rfl, demands_condition column data⟩ .nil
  | composite columns =>
    refine (forall₂_of_mapM_eq_ok h).imp fun column c hc => ?_
    cases hlookup : data.lookup? column with
    | none =>
      rw [hlookup] at hc
      cases hc
    | some v =>
      rw [hlookup] at hc
      cases hc
      exact ⟨rfl, .part (KeyData.gives_iff.2 hlookup)⟩

end PrimaryKey

/-- If a computation for each member of a list fails, then it fails at the first member for which it
does. -/
theorem exists_of_mapM_eq_error {ε α β : Type} {f : α → Except ε β} {as : List α} {e : ε}
    (h : as.mapM f = .error e) :
    ∃ front a back, as = front ++ a :: back ∧ (∀ x ∈ front, ∃ b, f x = .ok b) ∧ f a = .error e := by
  induction as with
  | nil =>
    rw [List.mapM_nil] at h
    cases h
  | cons a as ih =>
    rw [List.mapM_cons, bind_eq_error_iff] at h
    rcases h with h | ⟨b, hb, h⟩
    · exact ⟨[], a, as, rfl, fun _ hx => absurd hx List.not_mem_nil, h⟩
    · rw [bind_eq_error_iff] at h
      rcases h with h | ⟨bs, -, h⟩
      · obtain ⟨front, a', back, rfl, hfront, ha'⟩ := ih h
        exact ⟨a :: front, a', back, rfl, List.forall_mem_cons.2 ⟨⟨b, hb⟩, hfront⟩, ha'⟩
      · cases h

namespace PrimaryKey

variable {key : PrimaryKey} {data : KeyData} {cs : List (String × Condition)}

/-- The key condition cannot be stated for want of a value for the first column without one. -/
theorem exists_of_conditions_eq_error {e : Error} (h : key.conditions data = .error e) :
    ∃ front column back, key = composite (front ++ column :: back) ∧
      (∀ other ∈ front, ¬data.Lacks other) ∧ data.Lacks column ∧ e = .missingKeyColumn column := by
  cases key with
  | single column => cases h
  | composite columns =>
    obtain ⟨front, column, back, rfl, hfront, hcolumn⟩ := exists_of_mapM_eq_error h
    refine ⟨front, column, back, rfl, fun other hother => ?_, ?_⟩
    · obtain ⟨c, hc⟩ := hfront other hother
      rw [KeyData.lacks_iff]
      intro hnone
      rw [hnone] at hc
      cases hc
    · cases hlookup : data.lookup? column with
      | some v =>
        rw [hlookup] at hcolumn
        cases hcolumn
      | none =>
        rw [hlookup] at hcolumn
        cases hcolumn
        exact ⟨KeyData.lacks_iff.2 hlookup, rfl⟩

theorem not_isUnmet_of_conditions (h : key.conditions data = .ok cs) : ¬key.IsUnmet data := by
  rintro ⟨columns, rfl, column, hcolumn, hlacks⟩
  have hall := demands_of_conditions h
  obtain ⟨i, hi, rfl⟩ := List.getElem_of_mem hcolumn
  obtain ⟨-, hdemands⟩ := hall.get hi (hall.length_eq ▸ hi)
  generalize (cs.get _).2 = c at hdemands
  cases hdemands with
  | part hgives => exact hgives.not_lacks hlacks

end PrimaryKey

/-! ### What becomes of the document -/

namespace Filter

/-- The entries with a condition on a field: in place of what the first entry of the field has, or
in a new entry behind all others if there is none. -/
inductive Puts (name : String) (c : Condition) : List Entry → List Entry → Prop
  | inPlace {front back : List Entry} {cs : List Condition} :
      (∀ e ∈ front, ∀ ds, e ≠ .field name ds) →
      Puts name c (front ++ .field name cs :: back) (front ++ .field name [c] :: back)
  | behind {es : List Entry} :
      (∀ e ∈ es, ∀ ds, e ≠ .field name ds) → Puts name c es (es ++ [.field name [c]])

/-- The branches with the entries under a connective changed: in place if it has a branch, or in a
new branch behind all others if it has none. All other branches stay. -/
inductive Changes (k : Connective) (R : List Entry → List Entry → Prop) :
    List Branch → List Branch → Prop
  | inPlace {front back : List Branch} {es es' : List Entry} :
      (∀ b ∈ front, b.connective ≠ k) → R es es' →
      Changes k R (front ++ ⟨k, es⟩ :: back) (front ++ ⟨k, es'⟩ :: back)
  | behind {bs : List Branch} {es : List Entry} :
      (∀ b ∈ bs, b.connective ≠ k) → R [] es → Changes k R bs (bs ++ [⟨k, es⟩])

theorem Puts.cons {name : String} {c : Condition} {e : Entry} {es es' : List Entry}
    (he : ∀ ds, e ≠ .field name ds) (h : Puts name c es es') :
    Puts name c (e :: es) (e :: es') := by
  cases h with
  | inPlace hfront => exact .inPlace (List.forall_mem_cons.2 ⟨he, hfront⟩)
  | behind hes => exact .behind (List.forall_mem_cons.2 ⟨he, hes⟩)

theorem puts_putFieldEntry (name : String) (c : Condition) (es : List Entry) :
    Puts name c es (putFieldEntry name [c] es) := by
  fun_induction putFieldEntry name [c] es with
  | case1 => exact .behind fun _ he => absurd he List.not_mem_nil
  | case2 ds es => exact .inPlace fun _ he => absurd he List.not_mem_nil
  | case3 ds es n hne ih =>
    refine .cons (fun cs heq => ?_) ih
    cases heq
    exact hne rfl
  | case4 e es hne ih => exact .cons (fun cs heq => hne name cs heq) ih

theorem Changes.cons {k : Connective} {R : List Entry → List Entry → Prop} {b : Branch}
    {bs bs' : List Branch} (hb : b.connective ≠ k) (h : Changes k R bs bs') :
    Changes k R (b :: bs) (b :: bs') := by
  cases h with
  | inPlace hfront hes => exact .inPlace (List.forall_mem_cons.2 ⟨hb, hfront⟩) hes
  | behind hbs hes => exact .behind (List.forall_mem_cons.2 ⟨hb, hbs⟩) hes

theorem changes_update {k : Connective} {R : List Entry → List Entry → Prop}
    {f : List Entry → List Entry} (h : ∀ es, R es (f es)) (bs : List Branch) :
    Changes k R bs (update k f bs) := by
  induction bs with
  | nil => exact .behind (fun _ hb => absurd hb List.not_mem_nil) (h [])
  | cons b bs ih =>
    obtain ⟨j, es⟩ := b
    by_cases hj : j = k
    · subst hj
      rw [update, if_pos rfl]
      exact .inPlace (fun _ hb => absurd hb List.not_mem_nil) (h es)
    · rw [update, if_neg hj]
      exact .cons hj ih

theorem update_update (k : Connective) (f g : List Entry → List Entry) (bs : List Branch) :
    update k g (update k f bs) = update k (fun es => g (f es)) bs := by
  induction bs with
  | nil => simp [update]
  | cons b bs ih =>
    by_cases hb : b.connective = k
    · simp [update, hb]
    · simp [update, hb, ih]

/-- Conditions on fields, one after the other. -/
def putEach (fields : List (String × Condition)) (es : List Entry) : List Entry :=
  fields.foldl (fun es c => putFieldEntry c.1 [c.2] es) es

theorem foldl_putField (k : Connective) {fields : List (String × Condition)} (h : fields ≠ [])
    (bs : List Branch) :
    fields.foldl (fun bs c => putField k c.1 [c.2] bs) bs = update k (putEach fields) bs := by
  obtain ⟨c, cs, rfl⟩ := List.exists_cons_of_ne_nil h
  clear h
  induction cs generalizing c bs with
  | nil => rfl
  | cons d ds ih =>
    rw [List.foldl_cons, ih, putField, update_update]
    rfl

end Filter

namespace Document

/-- How a column of the key is named: by the alias that the map has for the main table, with its
placeholders resolved, or by its bare name if the map has none. -/
inductive NamesKey (pre : String) (d : Document) (column : String) : String → Prop
  | aliased {table short : String} {others : List String} :
      d.tables = table :: others → d.aliases.get? (TableName.expand pre table) = some short →
      NamesKey pre d column (short ++ "." ++ column)
  | bare :
      (∀ table others, d.tables = table :: others →
        d.aliases.get? (TableName.expand pre table) = none) → NamesKey pre d column column

/-- The entries with what is demanded of some columns, one after the other. -/
inductive Resolves (pre : String) (d : Document) (demands : String → Condition → Prop) :
    List String → List Entry → List Entry → Prop
  | nil {es : List Entry} : Resolves pre d demands [] es es
  | cons {column name : String} {columns : List String} {c : Condition}
      {es es' es'' : List Entry} :
      d.NamesKey pre column name → demands column c → Filter.Puts name c es es' →
      Resolves pre d demands columns es' es'' → Resolves pre d demands (column :: columns) es es''

theorem namesKey_qualifyKey (pre : String) (d : Document) (column : String) :
    d.NamesKey pre column (d.qualifyKey pre column) := by
  unfold qualifyKey mainAlias? mainTable?
  cases htables : d.tables with
  | nil => exact .bare fun _ _ h => nomatch htables.symm.trans h
  | cons table others =>
    rw [List.head?_cons, Option.bind_some]
    cases halias : d.aliases.get? (TableName.expand pre table) with
    | none =>
      refine .bare fun t ts h => ?_
      obtain ⟨rfl, rfl⟩ := List.cons.inj (htables.symm.trans h)
      exact halias
    | some short => exact .aliased htables halias

theorem resolves_putEach {pre : String} {d : Document} {demands : String → Condition → Prop}
    {columns : List String} {cs : List (String × Condition)}
    (h : List.Forall₂ (fun column c => c.1 = column ∧ demands column c.2) columns cs)
    (es : List Entry) :
    d.Resolves pre demands columns es
      (Filter.putEach (cs.map fun c => (d.qualifyKey pre c.1, c.2)) es) := by
  induction h generalizing es with
  | nil => exact .nil
  | @cons column c columns cs hc _ ih =>
    obtain ⟨rfl, hdemands⟩ := hc
    exact .cons (d.namesKey_qualifyKey pre c.1) hdemands (Filter.puts_putFieldEntry _ _ es) (ih _)

end Document

/-- The key condition fails for a composite key only, when there is no value for one of its columns:
the error names the first such column, and the saved document stays. Else it is put into the WHERE
clause of the saved document, and nothing but the entries under `AND` changes: one column after the
other gets what is demanded of it. -/
theorem Call.run_requireKey (draft : Draft) (o : Document) (data : KeyData) :
    let key := draft.settings.key
    let done := Call.run ⟨draft, some o⟩ (.requireKey data)
    (key.IsUnmet data →
      ∃ front column back, key = .composite (front ++ column :: back) ∧
        (∀ other ∈ front, ¬data.Lacks other) ∧ data.Lacks column ∧
        done = (⟨draft, some o⟩, .document (.error (.missingKeyColumn column)), none)) ∧
    (¬key.IsUnmet data →
      ∃ bs, done = (⟨draft, some { o with filter := bs }⟩, .document (.ok { o with filter := bs }),
          none) ∧
        (key.columns = [] → bs = o.filter) ∧
        (key.columns ≠ [] →
          Filter.Changes .and
            (o.Resolves draft.settings.tablePrefix (key.Demands data) key.columns)
            o.filter bs)) := by
  intro key done
  have hdone : done = (Session.save ⟨draft, some o⟩ (o.requireKey draft.settings data),
      .document (o.requireKey draft.settings data), none) := rfl
  rw [hdone, Document.requireKey]
  cases hconditions : key.conditions data with
  | error e =>
    obtain ⟨front, column, back, hkey, hfront, hcolumn, rfl⟩ :=
      PrimaryKey.exists_of_conditions_eq_error hconditions
    refine ⟨fun _ => ⟨front, column, back, hkey, hfront, hcolumn, ?_⟩, fun hmet => ?_⟩
    · rfl
    · exact absurd ⟨_, hkey, column, by simp, hcolumn⟩ hmet
  | ok cs =>
    have hmet := PrimaryKey.not_isUnmet_of_conditions hconditions
    have hall := PrimaryKey.demands_of_conditions hconditions
    refine ⟨fun hunmet => absurd hunmet hmet, fun _ =>
      ⟨(o.putConditions draft.settings.tablePrefix cs).filter, rfl, fun hnone => ?_,
        fun hsome => ?_⟩⟩
    · rw [hnone, List.forall₂_nil_left_iff] at hall
      rw [hall]
      rfl
    · have hcs : cs.map (fun c => (o.qualifyKey draft.settings.tablePrefix c.1, c.2)) ≠ [] := by
        rintro hnil
        rw [List.map_eq_nil_iff.1 hnil, List.forall₂_nil_right_iff] at hall
        exact hsome hall
      have hput := Filter.foldl_putField .and hcs o.filter
      rw [List.foldl_map] at hput
      rw [Document.putConditions, hput]
      exact Filter.changes_update (Document.resolves_putEach hall) o.filter

/-- A query whose rows have a key of two columns. -/
def Draft.pairSample : Draft := .new { key := .composite ["a", "b"], tablePrefix := "x_" }

/-- A document with two connectives, in which one of the columns is demanded twice. -/
def Document.pairSample : Document :=
  { tables := ["__U__"]
    aliases := ⟨[("x_u", "m")]⟩
    filter :=
      [⟨.or, [.field "m.a" [.isNull]]⟩,
        ⟨.and, [.raw "c" [], .field "m.b" [.isNull], .field "m.b" [.isNotNull]]⟩] }

/-- The first entry of a column is replaced, and a new one stands behind all others. -/
theorem Call.run_requireKey_pairSample :
    let done (data : KeyData) := Call.run ⟨.pairSample, some .pairSample⟩ (.requireKey data)
    let half := KeyData.map [("a", .int 1)]
    let whole := KeyData.map [("b", .int 2), ("a", .int 1), ("b", .int 3)]
    Draft.pairSample.settings.key.IsUnmet half ∧
      done half = (⟨.pairSample, some .pairSample⟩, .document (.error (.missingKeyColumn "b")),
        none) ∧
      ¬Draft.pairSample.settings.key.IsUnmet whole ∧
      ∃ bs, done whole = (⟨.pairSample, some { Document.pairSample with filter := bs }⟩,
          .document (.ok { Document.pairSample with filter := bs }), none) ∧
        bs = [⟨.or, [.field "m.a" [.isNull]]⟩,
          ⟨.and, [.raw "c" [], .field "m.b" [.eq (.int 2)], .field "m.b" [.isNotNull],
            .field "m.a" [.eq (.int 1)]]⟩] := by
  intro done half whole
  have hhalf : half.Lacks "b" := KeyData.lacks_iff.2 (by decide +kernel)
  have hunmet : Draft.pairSample.settings.key.IsUnmet half :=
    ⟨["a", "b"], rfl, "b", by simp, hhalf⟩
  have hmet : ¬Draft.pairSample.settings.key.IsUnmet whole := by
    rintro ⟨columns, hkey, column, hcolumn, hlacks⟩
    cases hkey
    rw [KeyData.lacks_iff] at hlacks
    rcases List.mem_pair.1 hcolumn with rfl | rfl <;> exact absurd hlacks (by decide +kernel)
  obtain ⟨hfails, -⟩ := Call.run_requireKey .pairSample .pairSample half
  obtain ⟨-, hholds⟩ := Call.run_requireKey .pairSample .pairSample whole
  obtain ⟨front, column, back, hkey, hfront, hcolumn, hdone⟩ := hfails hunmet
  obtain ⟨bs, hbs, -⟩ := hholds hmet
  obtain rfl : column = "b" := by
    have hmem : column ∈ ["a", "b"] := PrimaryKey.composite.inj hkey ▸ by simp
    rcases List.mem_pair.1 hmem with rfl | rfl
    · exact absurd (KeyData.lacks_iff.1 hcolumn) (by decide +kernel)
    · rfl
  refine ⟨hunmet, hdone, hmet, bs, hbs, ?_⟩
  have hput : (Document.pairSample.putConditions "x_"
      [("a", .eq (.int 1)), ("b", .eq (.int 2))]).filter = bs := by
    have hanswer := congrArg (fun step => step.2.1) hbs
    exact congrArg Document.filter (Except.ok.inj (Answer.document.inj hanswer))
  have ha : Document.pairSample.qualifyKey "x_" "a" = "m.a" := by decide +kernel
  have hb : Document.pairSample.qualifyKey "x_" "b" = "m.b" := by decide +kernel
  rw [← hput]
  simp only [Document.putConditions, List.foldl_cons, List.foldl_nil, ha, hb]
  simp [Document.pairSample, Filter.putField, Filter.update, Filter.putFieldEntry]

end SqlSelect
