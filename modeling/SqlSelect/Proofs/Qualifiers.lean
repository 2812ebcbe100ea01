import SqlSelect.Proofs.Reading.Names
import SqlSelect.Proofs.Resolving
import SqlSelect.Proofs.Selection.Alias

/-!
# Names in front of a column

A key may name the table of a column in front of a dot. Where the table has an alias, the alias
takes the place of its name. The name that is looked up ends at the first dot of the key.

* `TableName.expand_dot`: no placeholder goes on over a dot;
* `Name.owner`, `Scope.qualifier`: the name that is looked up, and what is written for a name in
  front of a column (`Scope.qualify_dot`);
* `Scope.WritesKey`: how a field is written in each of the clauses (`Scope.writesKey_iff`);
* `Document.writesKey_of_table`: when a table that is introduced under an alias is named by it;
* `Session.writesKey_of_short`: when an alias in front of a column is left alone.
-/

namespace SqlSelect

/-! ### Placeholders in front of a dot -/

namespace TableName

variable {pre cs ds : List Char} {d : Char}

/-- The name of a placeholder does not go on over a character that no name has. -/
theorem closing?_append_cons (hd : isPlaceholderChar d = false) (cs ds : List Char) :
    closing? (cs ++ d :: ds) = (closing? cs).map fun (name, rest) => (name, rest ++ d :: ds) := by
  have hne : d ≠ '_' := by
    rintro rfl
    exact absurd hd (by decide)
  fun_induction closing? cs with
  | case1 => simp [closing?, hd]
  | case2 c hc rest => simp [closing?, hc]
  | case3 c cs hc hopen ih =>
    have hclosed : ∀ rest, cs ++ d :: ds ≠ '_' :: '_' :: rest := by
      intro rest h
      rcases cs with _ | ⟨a, _ | ⟨b, cs⟩⟩
      · exact hne (List.cons.inj h).1
      · exact hne (List.cons.inj (List.cons.inj h).2).1
      · obtain ⟨rfl, htail⟩ := List.cons.inj h
        obtain ⟨rfl, -⟩ := List.cons.inj htail
        exact hopen cs rfl
    rw [List.cons_append, closing?, if_pos hc, ih]
    · cases closing? cs <;> rfl
    · exact hclosed
  | case4 c cs hc => simp [closing?, hc]

/-- A placeholder at the front is resolved, and the search goes on behind it. -/
theorem expandChars_of_closing? {name rest : List Char} (h : closing? cs = some (name, rest)) :
    expandChars pre ('_' :: '_' :: cs) = pre ++ Chars.lowerAscii name ++ expandChars pre rest := by
  rw [expandChars, if_pos ⟨rfl, rfl⟩]
  split
  · next name' rest' hname =>
    rw [h] at hname
    cases hname
    rfl
  · next hname =>
    rw [h] at hname
    cases hname

/-- Texts around such a character are resolved each by itself. -/
theorem expandChars_append_cons (hd : isPlaceholderChar d = false) (cs ds : List Char) :
    expandChars pre (cs ++ d :: ds) = expandChars pre cs ++ d :: expandChars pre ds := by
  have hne : d ≠ '_' := by
    rintro rfl
    exact absurd hd (by decide)
  have hfront : expandChars pre (d :: ds) = d :: expandChars pre ds := by
    cases ds with
    | nil => simp
    | cons e ds => exact expandChars_cons_cons fun h => absurd h hne
  fun_induction expandChars pre cs with
  | case1 => exact hfront
  | case2 c =>
    rw [List.singleton_append, expandChars_cons_cons fun _ h => absurd h hne, hfront]
    rfl
  | case3 c e cs hce name rest hname _ ih =>
    obtain ⟨rfl, rfl⟩ := hce
    have hlonger : closing? (cs ++ d :: ds) = some (name, rest ++ d :: ds) := by
      rw [closing?_append_cons hd, hname]
      rfl
    rw [List.cons_append, List.cons_append, expandChars_of_closing? hlonger, ih]
    simp
  | case4 c e cs _ hname ih =>
    have hlonger : closing? (cs ++ d :: ds) = none := by
      rw [closing?_append_cons hd, hname]
      rfl
    rw [List.cons_append, List.cons_append, expandChars_cons_cons fun _ _ => hlonger,
      ← List.cons_append, ih]
    rfl
  | case5 c e cs hce ih =>
    rw [List.cons_append, List.cons_append, expandChars_cons_cons fun hc he => absurd ⟨hc, he⟩ hce,
      ← List.cons_append, ih]
    rfl

theorem expand_append_singleton (hd : isPlaceholderChar d = false) (pre s t : String) :
    expand pre (s ++ String.singleton d ++ t) =
      expand pre s ++ String.singleton d ++ expand pre t := by
  have hchars : (s ++ String.singleton d ++ t).toList = s.toList ++ d :: t.toList := by simp
  rw [← String.toList_inj, expand, hchars, expandChars_append_cons hd]
  simp [expand]

/-- A text in front of a dot and the text behind it are resolved each by itself. -/
theorem expand_dot (pre name column : String) :
    expand pre (name ++ "." ++ column) = expand pre name ++ "." ++ expand pre column := by
  have hdot : "." = String.singleton '.' := by decide
  rw [hdot]
  exact expand_append_singleton (by decide) pre name column

end TableName

/-! ### The owner of a column -/

namespace Name

variable {name column : String}

/-- What a name begins with, up to its first dot. -/
def owner (name : String) : String := String.ofList (name.toList.takeWhile (· != '.'))

/-- What a name goes on with behind its owner: a dot and the rest, if there is a dot. -/
def members (name : String) : String := String.ofList (name.toList.dropWhile (· != '.'))

theorem owner_append_members (name : String) : owner name ++ members name = name := by
  rw [owner, members, ← String.ofList_append, List.takeWhile_append_dropWhile,
    String.ofList_toList]

/-- A name without a dot is its own owner. -/
theorem owner_of_not_mem (h : '.' ∉ name.toList) : owner name = name ∧ members name = "" := by
  have hall : ∀ c ∈ name.toList, (c != '.') = true := fun c hc => by
    rw [bne_iff_ne]
    rintro rfl
    exact h hc
  rw [owner, members, List.takeWhile_eq_self_iff.2 hall, List.dropWhile_eq_nil_iff.2 hall,
    String.ofList_toList]
  exact ⟨rfl, rfl⟩

/-- A name of plain characters that has no table placeholder in it. -/
structure IsSteady (name : String) : Prop where
  isOver : Text.IsOver isPlainChar name
  noPlaceholder : ¬ TableName.HasPlaceholder name.toList

/-- Without two underscores in a row there is no placeholder. -/
theorem IsSteady.of_apart (h : Text.IsOver isPlainChar name)
    (hapart : ¬ ['_', '_'] <:+: name.toList) : IsSteady name := by
  refine ⟨h, ?_⟩
  rintro ⟨before, behind, hname, -⟩
  exact hapart ⟨before, behind, by simp [hname]⟩

theorem IsSteady.expand (h : IsSteady name) (pre : String) : TableName.expand pre name = name := by
  rw [TableName.expand, TableName.expandChars_of_not_hasPlaceholder h.noPlaceholder,
    String.ofList_toList]

theorem isExpressionChar_of_isPlainChar {c : Char} (h : isPlainChar c = true) :
    isExpressionChar c = false := by
  rw [Bool.eq_false_iff]
  intro hc
  have hcases : (c = ',' ∨ c = '=' ∨ c = '<' ∨ c = '>' ∨ c = '\'' ∨ c = '"' ∨ c = '(') ∨
      Chars.isWhiteSpace c = true := by
    simpa [isExpressionChar] using hc
  rcases hcases with hspecial | hspace
  · rcases hspecial with rfl | rfl | rfl | rfl | rfl | rfl | rfl <;> exact absurd h (by decide)
  · rw [(not_special_of_isPlainChar h).1] at hspace
    exact absurd hspace (by decide)

theorem isExpression_of_isPlain (h : Text.IsOver isPlainChar name) : isExpression name = false := by
  rw [isExpression, List.any_eq_false]
  exact fun c hc => by simp [isExpressionChar_of_isPlainChar (h c hc)]

end Name

/-- What stands before and after the first separator, if there is one for sure. -/
theorem Chars.exists_splitFirst?_append_cons (sep : Char) (cs ds : List Char) :
    ∃ rest, cs.dropWhile (· != sep) ++ sep :: ds = sep :: rest ∧
      splitFirst? sep (cs ++ sep :: ds) = some (cs.takeWhile (· != sep), rest) := by
  induction cs with
  | nil => exact ⟨ds, rfl, by simp [splitFirst?]⟩
  | cons c cs ih =>
    by_cases hc : c = sep
    · exact ⟨cs ++ sep :: ds, by simp [hc], by simp [splitFirst?, hc]⟩
    · obtain ⟨rest, hrest, hsplit⟩ := ih
      exact ⟨rest, by simpa [hc] using hrest, by simp [splitFirst?, hc, hsplit]⟩

namespace Scope

variable {s : Scope} {name column : String}

/-- What is written for a name in front of a column: its owner, or the alias of its owner, and then
the rest. A text that is no name stays as it is. -/
def qualifier (s : Scope) (name : String) : String :=
  if Name.isExpression name then name
  else (s.aliases.get? (Name.owner name)).getD (Name.owner name) ++ Name.members name

/-- A name without an alias for its owner stays as it is. -/
theorem qualifier_eq_self (h : s.aliases.get? (Name.owner name) = none) :
    s.qualifier name = name := by
  rw [qualifier, h, Option.getD_none, Name.owner_append_members, ite_self]

/-- A table with an alias is replaced by it if its name is one word without a dot. -/
theorem qualifier_of_alias {short : String} (h : s.aliases.get? name = some short)
    (hname : Name.isExpression name = false) (hdot : '.' ∉ name.toList) :
    s.qualifier name = short := by
  obtain ⟨howner, hmembers⟩ := Name.owner_of_not_mem hdot
  rw [qualifier, if_neg (by simp [hname]), howner, hmembers, h, Option.getD_some,
    String.append_empty]

/-- A qualified column is written behind what is written for the name in front of it. -/
theorem qualify_dot (hcolumn : Name.isExpression column = false) :
    s.qualify (name ++ "." ++ column) = s.qualifier name ++ "." ++ column := by
  have hchars : (name ++ "." ++ column).toList = name.toList ++ '.' :: column.toList := by simp
  have hexpression : Name.isExpression (name ++ "." ++ column) = Name.isExpression name := by
    rw [Name.isExpression] at hcolumn ⊢
    rw [hchars, List.any_append, List.any_cons, hcolumn, Name.isExpression]
    simp [(by decide : Name.isExpressionChar '.' = false)]
  obtain ⟨rest, hrest, hsplit⟩ :=
    Chars.exists_splitFirst?_append_cons '.' name.toList column.toList
  have hbehind : Name.members name ++ "." ++ column = "." ++ String.ofList rest := by
    rw [← String.toList_inj, Name.members]
    simpa using hrest
  have hfirst : Text.splitFirst? '.' (name ++ "." ++ column) =
      some (Name.owner name, String.ofList rest) := by
    rw [Text.splitFirst?, hchars, hsplit]
    rfl
  rw [qualify, hfirst]
  simp only [hexpression, qualifier]
  split
  · rfl
  · cases s.aliases.get? (Name.owner name) with
    | none => rw [Option.map_none, Option.getD_none, Option.getD_none, Name.owner_append_members]
    | some short =>
      -- the first dot stands behind the owner
      simp only [Option.map_some, Option.getD_some, String.append_assoc] at hbehind ⊢
      rw [hbehind]

end Scope

/-! ### A field in each of the clauses -/

/-- Joining texts without the separator and cutting at it again gives the texts back. -/
theorem Chars.splitOn_join {sep : Char} {ws : List (List Char)} (hne : ws ≠ [])
    (h : ∀ w ∈ ws, sep ∉ w) : splitOn sep (join [sep] ws) = ws := by
  have hfree : ∀ w ∈ ws, ∀ c ∈ w, (c == sep) = false := fun w hw c hc => by
    rw [beq_eq_false_iff_ne]
    rintro rfl
    exact h w hw hc
  unfold splitOn
  match ws with
  | [] => exact absurd rfl hne
  | [w] => exact splitWhere_of_forall (hfree w List.mem_cons_self)
  | w :: v :: ws =>
    have hrest : splitOn sep (join [sep] (v :: ws)) = v :: ws :=
      splitOn_join (List.cons_ne_nil _ _) fun x hx => h x (List.mem_cons_of_mem w hx)
    have hjoin : join [sep] (w :: v :: ws) = w ++ sep :: join [sep] (v :: ws) := by simp [join]
    rw [hjoin, splitWhere_append_cons (hfree w List.mem_cons_self) (beq_self_eq_true sep)]
    exact congrArg (w :: ·) hrest

namespace Name

variable {field : String}

/-- A character of a key: a plain one, or the dash that a table placeholder may have. -/
def isKeyChar (c : Char) : Bool := isPlainChar c || c == '-'

theorem isKeyChar_of_isPlainChar {c : Char} (h : isPlainChar c = true) : isKeyChar c = true := by
  simp [isKeyChar, h]

theorem not_mem_of_isKey (h : Text.IsOver isKeyChar field) {c : Char}
    (hc : isKeyChar c = false) : c ∉ field.toList := fun hmem => by
  rw [h c hmem] at hc
  exact absurd hc (by decide)

theorem trim_of_isKey (h : Text.IsOver isKeyChar field) : Text.trim field = field := by
  refine Text.trim_eq_self_iff.2 (Chars.isTrimmed_of_forall fun c hc => ?_)
  have hcases : isPlainChar c = true ∨ c = '-' := by simpa [isKeyChar] using h c hc
  rcases hcases with hplain | rfl
  · exact (not_special_of_isPlainChar hplain).1
  · decide

/-- A key stands for one field. -/
theorem fanOut?_of_isKey (h : Text.IsOver isKeyChar field) : fanOut? field = none := by
  rw [fanOut?_eq_none_iff, Text.has, Text.has]
  simp [not_mem_of_isKey h (by decide : isKeyChar '|' = false),
    not_mem_of_isKey h (by decide : isKeyChar '&' = false)]

end Name

namespace Scope

variable {s : Scope} {field text : String}

/-- A list of keys to group by is written key by key. -/
theorem groupKeys_join {ks : List String} (hne : ks ≠ [])
    (h : ∀ k ∈ ks, Text.IsOver Name.isKeyChar k) :
    s.groupKeys (Text.join "," ks) = Text.join "," (ks.map s.key) := by
  have hchars : (Text.join "," ks).toList = Chars.join [','] (ks.map String.toList) :=
    Text.toList_join "," ks
  have hparen : Text.has (Text.join "," ks) '(' = false := by
    have hover : Text.IsOver (· != '(') (Text.join "," ks) :=
      Text.isOver_join (by decide) fun k hk => (h k hk).mono fun c hc => by
        rw [bne_iff_ne]
        rintro rfl
        exact absurd hc (by decide)
    rw [Text.has, Bool.eq_false_iff, ne_eq, List.contains_iff_mem]
    exact fun hmem => absurd (hover '(' hmem) (by decide)
  have hsplit : Text.splitOn ',' (Text.join "," ks) = ks := by
    rw [Text.splitOn, hchars, Chars.splitOn_join (by simpa using hne) ?_, List.map_map]
    · simp
    · intro w hw
      obtain ⟨k, hk, rfl⟩ := List.mem_map.1 hw
      exact Name.not_mem_of_isKey (h k hk) (by decide)
  rw [groupKeys, if_neg (by simp [hparen]), hsplit]
  refine congrArg (Text.join ",") (List.map_congr_left fun k hk => ?_)
  rw [Name.trim_of_isKey (h k hk)]

/-- The field is written as `text` wherever it stands: as a selected field, with an alias or
without, on both sides of the condition of a join, in a WHERE clause, among the keys to group by,
and as an item of the order. -/
structure WritesKey (s : Scope) (field text : String) : Prop where
  column : s.fieldItem (.column field) = text
  aliased : ∀ short, s.fieldItem (.aliased field short) = text ++ " AS " ++ s.quote short
  left : ∀ right, s.joinOn (.eq field right) = text ++ "=" ++ s.key right
  right : ∀ left, s.joinOn (.eq left field) = s.key left ++ "=" ++ text
  filter : ∀ cs, Entry.render s (.field field cs) =
    .conjoined (cs.map (Condition.render s text))
  group : ∀ before after : List String, (∀ k ∈ before ++ after, Text.IsOver Name.isKeyChar k) →
    s.groupKeys (Text.join "," (before ++ field :: after)) =
      Text.join "," (before.map s.key ++ text :: after.map s.key)
  order : s.orderItem (.field field none) = text
  ordered : ∀ direction, s.orderItem (.field field (some direction)) =
    text ++ " " ++ direction.keyword

/-- All clauses write a key in the same way. -/
theorem writesKey_iff (h : Text.IsOver Name.isKeyChar field) :
    s.WritesKey field text ↔ s.key field = text := by
  refine ⟨fun hwrites => hwrites.column, ?_⟩
  rintro rfl
  refine ⟨rfl, fun _ => rfl, fun _ => rfl, fun _ => rfl, fun cs => ?_, fun before after hks => ?_,
    rfl, fun _ => rfl⟩
  · rw [Entry.render, renderField, Name.fanOut?_of_isKey h, Condition.renderEach_eq_map]
  · rw [groupKeys_join (by simp) fun k hk => ?_, List.map_append, List.map_cons]
    rw [List.mem_append, List.mem_cons] at hk
    rcases hk with hk | rfl | hk
    · exact hks k (List.mem_append_left _ hk)
    · exact h
    · exact hks k (List.mem_append_right _ hk)

variable {name column : String}

/-- Where no quotes are written, a column behind a name is written behind its qualifier. -/
theorem writesKey_dot_iff (hgeneric : s.renderer.dialect = .generic)
    (hname : Text.IsOver Name.isKeyChar name) (hcolumn : Name.IsSteady column) :
    s.WritesKey (name ++ "." ++ column) text ↔
      s.qualifier (s.expand name) ++ "." ++ column = text := by
  have hkey : Text.IsOver Name.isKeyChar (name ++ "." ++ column) := by
    rw [Text.isOver_append, Text.isOver_append]
    exact ⟨⟨hname, by decide⟩, hcolumn.isOver.mono fun _ => Name.isKeyChar_of_isPlainChar⟩
  have hexpand : s.expand (name ++ "." ++ column) = s.expand name ++ "." ++ column := by
    rw [expand, TableName.expand_dot, hcolumn.expand]
    rfl
  rw [writesKey_iff hkey, key, quote_of_generic hgeneric, hexpand,
    qualify_dot (Name.isExpression_of_isPlain hcolumn.isOver)]

end Scope

/-! ### Columns that are named by a table -/

/-- How a column is written that is named by a table, where the table is introduced under an alias.
The alias is written if the resolved name of the table is one word without a dot. In general it is
written just if it is the qualifier of the resolved name: of a name with a dot only the part in
front of the dot is looked up, and without an alias for this part the column keeps the name of the
table, which the alias hides. -/
theorem Document.writesKey_of_table {d : Document} {r : Renderer} (hgeneric : r.dialect = .generic)
    {table short column : String} (htable : Text.IsOver Name.isKeyChar table)
    (hcolumn : Name.IsSteady column)
    (hshown : (d.scope r).table table = (d.scope r).expand table ++ " " ++ short) :
    let s := d.scope r
    let resolved := s.expand table
    let key := table ++ "." ++ column
    (Name.isExpression resolved = false → '.' ∉ resolved.toList →
        s.WritesKey key (short ++ "." ++ column)) ∧
      (s.WritesKey key (short ++ "." ++ column) ↔ s.qualifier resolved = short) ∧
      (s.aliases.get? (Name.owner resolved) = none →
        s.WritesKey key (resolved ++ "." ++ column)) := by
  intro s resolved key
  have hscope : s.renderer.dialect = .generic := hgeneric
  have hwrites : ∀ {text}, s.WritesKey key text ↔ s.qualifier resolved ++ "." ++ column = text :=
    Scope.writesKey_dot_iff hscope htable hcolumn
  have htableAs : s.table table = s.tableAs table short := by
    rw [Scope.tableAs, Scope.quote_of_generic hscope, Scope.quote_of_generic hscope]
    exact hshown
  obtain ⟨-, hshort⟩ := (Scope.table_eq_tableAs_iff hscope).1 htableAs
  refine ⟨fun hname hdot => ?_, ?_, fun howner => ?_⟩
  · rw [hwrites, Scope.qualifier_of_alias hshort hname hdot]
  · rw [hwrites, String.append_assoc, String.append_assoc]
    exact String.append_left_inj _
  · rw [hwrites, Scope.qualifier_eq_self howner]

/-- A table by a placeholder and a table of another database, each with an alias. -/
def Document.ownedSample : Document :=
  { tables := ["__USER__", "db.log"]
    aliases := .ofList [("think_user", "u"), ("db.log", "l")] }

/-- Both are introduced under their aliases. A column of the first is written with the alias, and a
column of the second with the name that is hidden. -/
theorem Document.writesKey_ownedSample :
    let s := Document.ownedSample.scope { tablePrefix := "think_" }
    Document.ownedSample.tables.map s.table = ["think_user u", "db.log l"] ∧
      s.WritesKey "__USER__.id" "u.id" ∧ s.WritesKey "db.log.id" "db.log.id" ∧
      ¬ s.WritesKey "db.log.id" "l.id" := by
  have hid : Name.IsSteady "id" := .of_apart (by decide) (by decide)
  obtain ⟨hword, -, -⟩ := @Document.writesKey_of_table .ownedSample { tablePrefix := "think_" } rfl
    "__USER__" "u" "id" (by decide) hid (by decide +kernel)
  obtain ⟨-, hiff, hhidden⟩ := @Document.writesKey_of_table .ownedSample { tablePrefix := "think_" }
    rfl "db.log" "l" "id" (by decide) hid (by decide +kernel)
  have hresolved : (Document.ownedSample.scope { tablePrefix := "think_" }).expand "db.log" =
      "db.log" := by decide +kernel
  rw [hresolved] at hiff hhidden
  refine ⟨by decide +kernel, hword (by decide +kernel) (by decide +kernel),
    hhidden (by decide +kernel), fun h => ?_⟩
  exact absurd (hiff.1 h) (by decide +kernel)

/-! ### Columns that are named by an alias -/

/-- Where no table is declared under two spellings, an alias is found behind the name of its own
table and behind no other. -/
theorem AliasedTable.aliasOf?_eq_some_iff_exists {pre : String} {ts : List AliasedTable}
    (hts : (ts.map fun t => TableName.expand pre t.table).Nodup) {name short : String} :
    aliasOf? pre ts name = some short ↔
      ∃ w ∈ ts, TableName.expand pre w.table = name ∧ w.short = short := by
  rw [aliasOf?, Option.map_eq_some_iff]
  constructor
  · rintro ⟨w, hw, rfl⟩
    have hname : TableName.expand pre w.table = name := by simpa using List.find?_some hw
    exact ⟨w, List.mem_reverse.1 (List.mem_of_find?_eq_some hw), hname, rfl⟩
  · rintro ⟨w, hw, hname, rfl⟩
    have hsome : (ts.reverse.find? fun t => TableName.expand pre t.table = name).isSome :=
      List.find?_isSome.2 ⟨w, List.mem_reverse.2 hw, by simpa using hname⟩
    obtain ⟨v, hv⟩ := Option.isSome_iff_exists.1 hsome
    have hvname : TableName.expand pre v.table = name := by simpa using List.find?_some hv
    have hvmem : v ∈ ts := List.mem_reverse.1 (List.mem_of_find?_eq_some hv)
    obtain rfl : v = w := List.inj_on_of_nodup_map hts hvmem hw (hvname.trans hname.symm)
    exact ⟨v, hv, rfl⟩

namespace Scope

variable {s : Scope} {name column text : String}

theorem qualifier_of_isPlain (h : Text.IsOver Name.isPlainChar name) :
    s.qualifier name = (s.aliases.get? (Name.owner name)).getD (Name.owner name) ++
      Name.members name := by
  rw [qualifier, if_neg (by simp [Name.isExpression_of_isPlain h])]

/-- A name is left alone just if its owner is not the name of a table with another alias. -/
theorem qualifier_eq_self_iff (h : Text.IsOver Name.isPlainChar name) :
    s.qualifier name = name ↔
      ∀ a, s.aliases.get? (Name.owner name) = some a → a = Name.owner name := by
  cases ha : s.aliases.get? (Name.owner name) with
  | none => simpa using qualifier_eq_self ha
  | some a =>
    rw [qualifier_of_isPlain h, ha, Option.getD_some]
    -- both sides end with the members of the name
    conv_lhs => rhs; rw [← Name.owner_append_members name]
    rw [String.append_left_inj]
    simp

/-- Behind a steady name a column is written behind its qualifier. -/
theorem writesKey_steady_iff (hgeneric : s.renderer.dialect = .generic) (hname : Name.IsSteady name)
    (hcolumn : Name.IsSteady column) :
    s.WritesKey (name ++ "." ++ column) text ↔ s.qualifier name ++ "." ++ column = text := by
  have hexpand : s.expand name = name := hname.expand _
  rw [writesKey_dot_iff hgeneric (hname.isOver.mono fun _ => Name.isKeyChar_of_isPlainChar) hcolumn,
    hexpand]

/-- A column keeps the name in front of it just if no other name is kept behind its owner. -/
theorem writesKey_self_iff (hgeneric : s.renderer.dialect = .generic) (hname : Name.IsSteady name)
    (hcolumn : Name.IsSteady column) :
    s.WritesKey (name ++ "." ++ column) (name ++ "." ++ column) ↔
      ∀ a, s.aliases.get? (Name.owner name) = some a → a = Name.owner name := by
  rw [writesKey_steady_iff hgeneric hname hcolumn, String.append_left_inj, String.append_left_inj,
    qualifier_eq_self_iff hname.isOver]

/-- An alias behind the owner of a name takes its place. -/
theorem writesKey_of_get? (hgeneric : s.renderer.dialect = .generic) (hname : Name.IsSteady name)
    (hcolumn : Name.IsSteady column) {a : String}
    (ha : s.aliases.get? (Name.owner name) = some a) :
    s.WritesKey (name ++ "." ++ column) (a ++ Name.members name ++ "." ++ column) := by
  rw [writesKey_steady_iff hgeneric hname hcolumn, qualifier_of_isPlain hname.isOver, ha,
    Option.getD_some]

end Scope

/-- Which columns named by an alias are left alone. A draft that knows of no alias and no join is
given a table and then joins, each with an alias of its own and no table twice, and whatever else
one likes that says nothing of tables. Without a fault and a page it has a statement. In its
statement a column behind an alias is looked up by the name of a table all the same, so it keeps the
alias just if no other of the tables has this name, and else it is written behind the alias of that
table. -/
theorem Session.writesKey_of_short (s : Session) {t : AliasedTable} {js : List AliasedJoin}
    {cs : List Call} (haliases : s.draft.document.aliases = {})
    (hjoins : s.draft.document.joins = [])
    (hcs : cs.filter Call.isNaming =
      .declare t.declaration :: js.map fun j => .declare j.declaration)
    (htables : ((t :: js.map AliasedJoin.toAliasedTable).map fun u =>
      TableName.expand s.draft.settings.tablePrefix u.table).Nodup)
    (hshorts : ((t :: js.map AliasedJoin.toAliasedTable).map AliasedTable.short).Nodup) :
    let e := (Call.runAll s cs).1.draft
    let ts := t :: js.map AliasedJoin.toAliasedTable
    let resolved := TableName.expand s.draft.settings.tablePrefix
    (e.fault = none → e.document.page = none → ∃ st : Statement, e.select.1 = .ok st) ∧
      (e.renderer.dialect = .generic → ∀ st : Statement, e.select.1 = .ok st →
        ∃ doc : Document, e.finished = .ok doc ∧ st.sql = (doc.render e.renderer).sql ∧
          ∀ u ∈ ts, Name.IsSteady u.short → ∀ column, Name.IsSteady column →
            let scope := doc.scope e.renderer
            let key := u.short ++ "." ++ column
            let owner := Name.owner u.short
            (scope.WritesKey key key ↔ ∀ w ∈ ts, resolved w.table = owner → w.short = owner) ∧
              ('.' ∉ u.short.toList →
                (scope.WritesKey key key ↔ ∀ w ∈ ts, resolved w.table = u.short → w = u)) ∧
              ∀ w ∈ ts, resolved w.table = owner →
                scope.WritesKey key (w.short ++ Name.members u.short ++ "." ++ column)) := by
  intro e ts resolved
  obtain ⟨hmain, -, hnames⟩ := Call.naming_runAll_of_empty s haliases hjoins hcs
  refine ⟨fun hfault hpage => ?_, fun hgeneric st hst => ?_⟩
  · have hsome : e.document.tables ≠ [] := hmain ▸ List.cons_ne_nil _ _
    exact Draft.exists_select hsome hfault hpage
  obtain ⟨doc, hdoc, rfl⟩ := Draft.exists_of_select hst
  refine ⟨doc, hdoc, Draft.sql_build e doc, fun u hu hsteady column hcolumn => ?_⟩
  intro scope key owner
  have haliased : doc.kept.aliases = e.document.kept.aliases := by
    rw [(Draft.closes_of_finished hdoc).kept]
  have hknown : ∀ {a}, scope.aliases.get? owner = some a ↔
      ∃ w ∈ ts, resolved w.table = owner ∧ w.short = a := fun {a} => by
    have hget : scope.aliases.get? owner =
        AliasedTable.aliasOf? s.draft.settings.tablePrefix ts owner :=
      (congrArg (NameMap.get? · owner) haliased).trans (hnames owner)
    rw [hget, AliasedTable.aliasOf?_eq_some_iff_exists htables]
  have hself : scope.WritesKey key key ↔ ∀ w ∈ ts, resolved w.table = owner → w.short = owner := by
    rw [Scope.writesKey_self_iff hgeneric hsteady hcolumn]
    constructor
    · exact fun h w hw hname => h w.short (hknown.2 ⟨w, hw, hname, rfl⟩)
    · intro h a ha
      obtain ⟨w, hw, hname, rfl⟩ := hknown.1 ha
      exact h w hw hname
  refine ⟨hself, fun hdot => ?_, fun w hw hname => ?_⟩
  · have howner : owner = u.short := (Name.owner_of_not_mem hdot).1
    rw [hself, howner]
    constructor
    · exact fun h w hw hname => List.inj_on_of_nodup_map hshorts hw hu (h w hw hname)
    · exact fun h w hw hname => congrArg AliasedTable.short (h w hw hname)
  · exact Scope.writesKey_of_get? hgeneric hsteady hcolumn (hknown.2 ⟨w, hw, hname, rfl⟩)

/-- A table under an alias. -/
def AliasedTable.capturedSample : AliasedTable :=
  ⟨"person", "p", by decide, by decide⟩

/-- A join with a table that has the name of this alias. -/
def AliasedJoin.capturedSample : AliasedJoin :=
  ⟨⟨"p", "x", by decide, by decide⟩, .inner, [.raw "p.id = x.pid"]⟩

/-- A join with another table. -/
def AliasedJoin.spareSample : AliasedJoin := ⟨⟨"item", "i", by decide, by decide⟩, .left, []⟩

/-- The declarations of these, with a condition in between. -/
def Call.capturedSample : List Call :=
  [.declare AliasedTable.capturedSample.declaration,
    .require .and (.is "p.a" (.value (.int 1))),
    .declare AliasedJoin.capturedSample.declaration,
    .declare AliasedJoin.spareSample.declaration]

/-- A column behind the first alias is written behind the second one, and a column behind the third
alias is left alone. -/
theorem Session.writesKey_of_short_capturedSample :
    let e := (Call.runAll ⟨.new {}, none⟩ Call.capturedSample).1.draft
    ∃ st doc, e.select.1 = .ok st ∧ e.finished = .ok doc ∧
      let scope := doc.scope e.renderer
      scope.WritesKey "p.id" "x.id" ∧ ¬ scope.WritesKey "p.id" "p.id" ∧
        scope.WritesKey "i.id" "i.id" := by
  intro e
  obtain ⟨hanswers, hselect⟩ := @Session.writesKey_of_short ⟨.new {}, none⟩ .capturedSample
    [.capturedSample, .spareSample] Call.capturedSample rfl rfl rfl (by decide +kernel) (by decide)
  obtain ⟨st, hst⟩ := hanswers rfl rfl
  obtain ⟨doc, hdoc, -, hkeys⟩ := hselect rfl st hst
  have hid : Name.IsSteady "id" := .of_apart (by decide) (by decide)
  obtain ⟨hkept, -, htaken⟩ := hkeys .capturedSample (by simp)
    (.of_apart (by decide) (by decide)) "id" hid
  obtain ⟨hspare, -, -⟩ := hkeys AliasedJoin.spareSample.toAliasedTable (by simp)
    (.of_apart (by decide) (by decide)) "id" hid
  refine ⟨st, doc, hst, hdoc, ?_, fun h => ?_, hspare.2 (by decide +kernel)⟩
  · exact htaken AliasedJoin.capturedSample.toAliasedTable (by simp) (by decide +kernel)
  · exact absurd (hkept.1 h) (by decide +kernel)

end SqlSelect
