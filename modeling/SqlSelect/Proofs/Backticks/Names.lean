import SqlSelect.Proofs.Text.Trimmed

/-!
# Names in backticks

A name that is quoted and loses its backticks again is the name that is not quoted.

* `Text.unquoted`: a text without its backticks;
* `Name.IsTidy`, `Name.IsTidyField`: names without backticks of their own and without white space at
  their ends (`Dialect.unquoted_quoteParts`);
* `Renderer.unquoted`, `Scope.unquoted`: the same way to write, but without quotes;
* `Scope.unquoted_key`, `Scope.unquoted_table`, `Document.unquoted_clauseText`: keys, tables and flat
  clauses without their backticks are those that are written without them.
-/

namespace SqlSelect

/-! ### Texts without backticks -/

namespace Text

/-- Is the character no backtick? -/
def notBacktick (c : Char) : Bool := c != '\x60'

/-- The text without its backticks. -/
def unquoted (s : String) : String := String.ofList (s.toList.filter notBacktick)

variable {s : String}

@[simp] theorem unquoted_append (s t : String) : unquoted (s ++ t) = unquoted s ++ unquoted t := by
  simp [unquoted, String.ofList_append]

/-- A text without backticks stays as it is. -/
theorem unquoted_of_isOver (h : IsOver notBacktick s) : unquoted s = s := by
  rw [unquoted, List.filter_eq_self.2 h, String.ofList_toList]

theorem unquoted_join (sep : String) (ts : List String) :
    unquoted (join sep ts) = join (unquoted sep) (ts.map unquoted) := by
  match ts with
  | [] => rfl
  | [_] => rfl
  | _ :: t :: ts =>
    rw [join_cons_cons, unquoted_append, unquoted_append, unquoted_join sep (t :: ts)]
    rfl

/-- What is written for the members of a list, without backticks. -/
theorem unquoted_join_map {α : Type} {as : List α} {f g : α → String} {sep : String}
    (hsep : IsOver notBacktick sep) (h : ∀ a ∈ as, unquoted (f a) = g a) :
    unquoted (join sep (as.map f)) = join sep (as.map g) := by
  rw [unquoted_join, unquoted_of_isOver hsep, List.map_map]
  exact congrArg (join sep) (List.map_congr_left h)

theorem unquoted_ne_empty {c : Char} (hc : c ∈ s.toList) (h : notBacktick c = true) :
    unquoted s ≠ "" := by
  intro he
  have hmem : c ∈ (unquoted s).toList := by
    rw [unquoted, String.toList_ofList]
    exact List.mem_filter.2 ⟨hc, h⟩
  rw [he] at hmem
  exact absurd hmem List.not_mem_nil

/-- Cutting a text at a separator loses nothing. -/
theorem join_splitOn (sep : Char) (s : String) :
    join (String.singleton sep) (splitOn sep s) = s := by
  rw [← String.toList_inj, toList_join, splitOn, List.map_map]
  have hid : String.toList ∘ String.ofList = id := by
    funext cs
    simp
  rw [hid, List.map_id, String.toList_singleton, Chars.join_splitOn]

/-- A small letter is no backtick. -/
theorem notBacktick_toLower {c : Char} (h : notBacktick c = true) :
    notBacktick c.toLower = true := by
  rcases Chars.toLower_eq_self_or c with hc | hc
  · rw [hc]
    exact h
  · rw [notBacktick, bne_iff_ne]
    intro he
    rw [he] at hc
    exact absurd hc (by decide)

theorem notBacktick_toString (n : UInt64) : IsOver notBacktick (toString n) := by
  intro c hc
  have hn : toString n = n.toNat.repr := rfl
  rw [hn, Nat.toList_repr] at hc
  have hdigit := Nat.isDigit_of_mem_toDigits (by decide) (by decide) hc
  rw [notBacktick, bne_iff_ne]
  rintro rfl
  exact absurd hdigit (by decide)

end Text

open Text (notBacktick)

/-- A limit is written without backticks. -/
theorem Limit.notBacktick_text (l : Limit) : Text.IsOver notBacktick l.text := by
  rw [Limit.text]
  split
  · simp only [Text.isOver_append]
    exact ⟨⟨⟨by decide, Text.notBacktick_toString _⟩, by decide⟩, Text.notBacktick_toString _⟩
  · exact Text.isOver_append.2 ⟨by decide, Text.notBacktick_toString _⟩

/-- A name without backticks, and without white space at its ends. -/
structure Name.IsTidy (n : String) : Prop where
  notBacktick : Text.IsOver notBacktick n
  trimmed : Text.trim n = n

instance (n : String) : Decidable (Name.IsTidy n) :=
  decidable_of_iff (Text.IsOver notBacktick n ∧ Text.trim n = n)
    ⟨fun ⟨h, h'⟩ => ⟨h, h'⟩, fun ⟨h, h'⟩ => ⟨h, h'⟩⟩

/-- The backticks are all that quoting adds to a name. -/
theorem Dialect.unquoted_quoteParts {n : String} (h : Name.IsTidy n) :
    Text.unquoted (quoteParts n) = n := by
  simp only [quoteParts, h.trimmed]
  split
  · exact Text.unquoted_of_isOver h.notBacktick
  · have hpart : ∀ part ∈ Text.splitOn '.' n, Text.unquoted (quotePart part) = id part := by
      intro part hpart
      have hself := Text.unquoted_of_isOver (h.notBacktick.of_mem_splitOn hpart)
      have htick : Text.unquoted "\x60" = "" := by decide
      rw [quotePart]
      split
      · exact hself
      · rw [Text.unquoted_append, Text.unquoted_append, htick, hself, String.empty_append,
          String.append_empty, id]
    rw [Text.unquoted_join_map (by decide) hpart, List.map_id]
    exact Text.join_splitOn '.' n

/-! ### Names in documents -/

/-- The names in a selected field. -/
def FieldItem.names : FieldItem → List String
  | .column name => [name]
  | .aliased name short => [name, short]
  | .raw _ => []

/-- The names in a list of selected fields. -/
def FieldList.names : FieldList → List String
  | .all => []
  | .items is => is.flatMap FieldItem.names

/-- The names in a condition of a join. -/
def JoinOn.names : JoinOn → List String
  | .eq left right => [left, right]
  | .text _ => []
  | .raw _ => []

/-- The name in an item of the order. -/
def OrderItem.names : OrderItem → List String
  | .field name _ => [name]
  | .raw _ => []

/-- The names of fields and the aliases in the flat clauses. A table with white space in it is no
name, and the fields to group by are trimmed in any case. -/
def Document.clauseNames (d : Document) : List String :=
  d.aliases.entries.map Prod.snd ++ d.fields.names ++
    d.joins.flatMap (fun j => j.on.flatMap JoinOn.names) ++ d.order.flatMap OrderItem.names

/-- The field text has no backticks, and the names that it stands for are trimmed. -/
structure Name.IsTidyField (field : String) : Prop where
  notBacktick : Text.IsOver notBacktick field
  trimmed : ∀ n ∈ Name.fields field, Text.trim n = n

/-! ### Renderers and scopes -/

/-- The renderer with the dialect that does not quote. -/
def Renderer.unquoted (r : Renderer) : Renderer := { r with dialect := .generic }

/-- The scope in which nothing is quoted. -/
def Scope.unquoted (s : Scope) : Scope := { s with renderer := s.renderer.unquoted }

/-- The renderer writes backticks, and its prefix is tidy. -/
structure Renderer.Quotes (r : Renderer) : Prop where
  dialect : r.dialect = .mysql
  tablePrefix : Name.IsTidy r.tablePrefix

/-- The renderer of the scope writes backticks, and its prefix and aliases are tidy. -/
structure Scope.Quotes (s : Scope) : Prop where
  renderer : s.renderer.Quotes
  aliases : ∀ a ∈ s.aliases.entries.map Prod.snd, Name.IsTidy a

namespace Scope

variable {s : Scope}

theorem unquoted_quote (hs : s.Quotes) {n : String} (h : Name.IsTidy n) :
    Text.unquoted (s.quote n) = n := by
  rw [quote, hs.renderer.dialect, Dialect.quote_mysql, Dialect.unquoted_quoteParts h]

/-- Without its quotes, a scope adds nothing but its prefix and its aliases. -/
theorem isOver_unquoted (hs : s.Quotes) : s.unquoted.IsOver notBacktick where
  toLower _ := Text.notBacktick_toLower
  dot := by decide
  tablePrefix := hs.renderer.tablePrefix.notBacktick
  aliases a ha := (hs.aliases a ha).notBacktick
  quote _ ht := ht

theorem notBacktick_expand (hs : s.Quotes) {text : String} (h : Text.IsOver notBacktick text) :
    Text.IsOver notBacktick (s.expand text) :=
  TableName.isOver_expand (p := notBacktick) (fun _ => Text.notBacktick_toLower)
    hs.renderer.tablePrefix.notBacktick h

theorem unquoted_key (hs : s.Quotes) {field : String} (h : Name.IsTidy field) :
    Text.unquoted (s.key field) = s.unquoted.key field := by
  refine unquoted_quote hs ⟨?_, ?_⟩
  · exact isOver_qualify (isOver_unquoted hs) (notBacktick_expand hs h.notBacktick)
  · exact trim_qualify (fun a ha => (hs.aliases a ha).trimmed)
      (TableName.trim_expand hs.renderer.tablePrefix.trimmed h.trimmed)

/-- A table that is not written as it is has no white space at all. -/
theorem unquoted_table (hs : s.Quotes) {name : String} (h : Text.IsOver notBacktick name) :
    Text.unquoted (s.table name) = s.unquoted.table name := by
  have hname := notBacktick_expand hs h
  have hsame : s.unquoted.expand name = s.expand name := rfl
  simp only [table, hsame]
  split
  · exact Text.unquoted_of_isOver hname
  · next hopaque =>
    have hspace : Text.hasWhiteSpace (s.expand name) = false :=
      (Bool.or_eq_false_iff.1 (Bool.not_eq_true _ ▸ hopaque)).2
    have hforall : ∀ c ∈ (s.expand name).toList, Chars.isWhiteSpace c = false := fun c hc => by
      simpa using List.any_eq_false.1 hspace c hc
    have htidy : Name.IsTidy (s.expand name) :=
      ⟨hname, Text.trim_eq_self_iff.2 (Chars.isTrimmed_of_forall hforall)⟩
    have halias : s.unquoted.aliases = s.aliases := rfl
    rw [Text.unquoted_append, unquoted_quote hs htidy, halias]
    cases ha : s.aliases.get? (s.expand name) with
    | none => rfl
    | some short =>
      have hshort := hs.aliases short (NameMap.mem_values_of_get? ha)
      have hsep : Text.unquoted " " = " " := by decide
      simp only [Option.map_some, Option.getD_some, Text.unquoted_append, hsep,
        unquoted_quote hs hshort]
      rfl

/-! ### Flat clauses -/

theorem unquoted_fieldItem (hs : s.Quotes) {item : FieldItem}
    (htexts : ∀ t ∈ item.texts, Text.IsOver notBacktick t)
    (hnames : ∀ n ∈ item.names, Text.trim n = n) :
    Text.unquoted (s.fieldItem item) = s.unquoted.fieldItem item := by
  cases item with
  | column name =>
    exact unquoted_key hs ⟨htexts _ List.mem_cons_self, hnames _ List.mem_cons_self⟩
  | aliased name short =>
    have has : Text.unquoted " AS " = " AS " := by decide
    have hname : Text.unquoted (s.key name) = s.unquoted.key name := unquoted_key hs
      ⟨htexts _ List.mem_cons_self, hnames _ List.mem_cons_self⟩
    have hshort : Text.unquoted (s.quote short) = short := unquoted_quote hs
      ⟨htexts _ (by simp [FieldItem.texts]), hnames _ (by simp [FieldItem.names])⟩
    rw [fieldItem, Text.unquoted_append, Text.unquoted_append, hname, hshort, has]
    rfl
  | raw sql => exact Text.unquoted_of_isOver (htexts _ List.mem_cons_self)

theorem unquoted_fields (hs : s.Quotes) {fs : FieldList}
    (htexts : ∀ t ∈ fs.texts, Text.IsOver notBacktick t)
    (hnames : ∀ n ∈ fs.names, Text.trim n = n) :
    Text.unquoted (s.fields fs) = s.unquoted.fields fs := by
  cases fs with
  | all => exact (by decide : Text.unquoted "*" = "*")
  | items items =>
    exact Text.unquoted_join_map (by decide) fun item hitem => unquoted_fieldItem hs
      (fun t ht => htexts t (List.mem_flatMap.2 ⟨item, hitem, ht⟩))
      fun n hn => hnames n (List.mem_flatMap.2 ⟨item, hitem, hn⟩)

theorem unquoted_joinOn (hs : s.Quotes) {on : JoinOn}
    (htexts : ∀ t ∈ on.texts, Text.IsOver notBacktick t)
    (hnames : ∀ n ∈ on.names, Text.trim n = n) :
    Text.unquoted (s.joinOn on) = s.unquoted.joinOn on := by
  cases on with
  | eq left right =>
    have heq : Text.unquoted "=" = "=" := by decide
    have hleft : Text.unquoted (s.key left) = s.unquoted.key left := unquoted_key hs
      ⟨htexts _ List.mem_cons_self, hnames _ List.mem_cons_self⟩
    have hright : Text.unquoted (s.key right) = s.unquoted.key right := unquoted_key hs
      ⟨htexts _ (by simp [JoinOn.texts]), hnames _ (by simp [JoinOn.names])⟩
    rw [joinOn, Text.unquoted_append, Text.unquoted_append, hleft, hright, heq]
    rfl
  | text t => exact Text.unquoted_of_isOver (htexts _ List.mem_cons_self)
  | raw sql => exact Text.unquoted_of_isOver (htexts _ List.mem_cons_self)

theorem unquoted_join (hs : s.Quotes) {j : Join} (htexts : ∀ t ∈ j.texts, Text.IsOver notBacktick t)
    (hnames : ∀ n ∈ j.on.flatMap JoinOn.names, Text.trim n = n) :
    Text.unquoted (s.join j) = s.unquoted.join j := by
  have hkind : Text.IsOver notBacktick (" " ++ j.kind.keyword ++ " JOIN ") := by
    cases j.kind <;> decide
  have hon : Text.unquoted (Text.join " AND " (j.on.map s.joinOn)) =
      Text.join " AND " (j.on.map s.unquoted.joinOn) :=
    Text.unquoted_join_map (by decide) fun on hmem => unquoted_joinOn hs
      (fun t ht => htexts t (List.mem_cons_of_mem _ (List.mem_flatMap.2 ⟨on, hmem, ht⟩)))
      fun n hn => hnames n (List.mem_flatMap.2 ⟨on, hmem, hn⟩)
  rw [join, Text.unquoted_append, Text.unquoted_append, Text.unquoted_of_isOver hkind,
    unquoted_table hs (htexts _ List.mem_cons_self), join]
  congr 1
  split
  · rfl
  · have hword : Text.unquoted " ON " = " ON " := by decide
    rw [Text.unquoted_append, hon, hword]

theorem unquoted_groupKeys (hs : s.Quotes) {group : String} (h : Text.IsOver notBacktick group) :
    Text.unquoted (s.groupKeys group) = s.unquoted.groupKeys group := by
  rw [groupKeys, groupKeys]
  split
  · exact Text.unquoted_of_isOver h.trim
  · exact Text.unquoted_join_map (by decide) fun key hkey =>
      unquoted_key hs ⟨(h.of_mem_splitOn hkey).trim, Text.trim_trim key⟩

theorem unquoted_orderItem (hs : s.Quotes) {item : OrderItem}
    (htexts : ∀ t ∈ item.texts, Text.IsOver notBacktick t)
    (hnames : ∀ n ∈ item.names, Text.trim n = n) :
    Text.unquoted (s.orderItem item) = s.unquoted.orderItem item := by
  match item with
  | .field name none =>
    exact unquoted_key hs ⟨htexts _ List.mem_cons_self, hnames _ List.mem_cons_self⟩
  | .field name (some direction) =>
    have hname : Text.unquoted (s.key name) = s.unquoted.key name := unquoted_key hs
      ⟨htexts _ List.mem_cons_self, hnames _ List.mem_cons_self⟩
    have hdirection : Text.IsOver notBacktick (" " ++ direction.keyword) := by
      cases direction <;> decide
    rw [orderItem, String.append_assoc, Text.unquoted_append, hname,
      Text.unquoted_of_isOver hdirection, orderItem, String.append_assoc]
  | .raw sql => exact Text.unquoted_of_isOver (htexts _ List.mem_cons_self)

end Scope

namespace Document

variable {d : Document} {r : Renderer}

theorem quotes_scope (hr : r.Quotes) (htexts : ∀ t ∈ d.clauseTexts, Text.IsOver notBacktick t)
    (hnames : ∀ n ∈ d.clauseNames, Text.trim n = n) : (d.scope r).Quotes :=
  ⟨hr, fun a ha => ⟨htexts a (by simp only [clauseTexts, List.mem_append]; tauto),
    hnames a (by simp only [clauseNames, List.mem_append]; tauto)⟩⟩

/-- A flat clause without its backticks is the clause that is written without them. -/
theorem unquoted_clauseText (hr : r.Quotes) (htexts : ∀ t ∈ d.clauseTexts, Text.IsOver notBacktick t)
    (hnames : ∀ n ∈ d.clauseNames, Text.trim n = n) (slot : Slot) :
    Text.unquoted (d.clauseText r slot) = d.clauseText r.unquoted slot := by
  have hs := quotes_scope hr htexts hnames
  simp only [clauseTexts, List.mem_append, or_imp, forall_and] at htexts
  obtain ⟨⟨⟨⟨⟨⟨⟨⟨⟨htables, -⟩, hfields⟩, hjoins⟩, hgroup⟩, hhaving⟩, horder⟩, hlock⟩, hcomment⟩,
    hforced⟩ := htexts
  simp only [clauseNames, List.mem_append, or_imp, forall_and] at hnames
  obtain ⟨⟨⟨-, hfieldNames⟩, hjoinNames⟩, horderNames⟩ := hnames
  cases slot with
  | distinct =>
    simp only [clauseText]
    split <;> decide
  | fields => exact Scope.unquoted_fields hs hfields hfieldNames
  | tables =>
    exact Text.unquoted_join_map (by decide) fun table htable =>
      Scope.unquoted_table hs (htables table htable)
  | forced =>
    refine Text.unquoted_of_isOver ?_
    simp only [clauseText]
    split
    · exact Text.isOver_empty
    · simp only [Text.isOver_append]
      exact ⟨⟨by decide, Text.isOver_join (by decide) hforced⟩, by decide⟩
  | joins =>
    exact Text.unquoted_join_map Text.isOver_empty fun j hj => Scope.unquoted_join hs
      (fun t ht => hjoins t (List.mem_flatMap.2 ⟨j, hj, ht⟩))
      fun n hn => hjoinNames n (List.mem_flatMap.2 ⟨j, hj, hn⟩)
  | filter => rfl
  | group =>
    simp only [clauseText]
    split
    · next group hg =>
      split
      · rfl
      · rw [Text.unquoted_append, Scope.unquoted_groupKeys hs (hgroup group (by simp [hg]))]
        congr 1
    · rfl
  | having =>
    refine Text.unquoted_of_isOver ?_
    simp only [clauseText]
    cases hh : d.having with
    | none => exact Text.isOver_empty
    | some sql => exact Text.isOver_append.2 ⟨by decide, hhaving sql (by simp [hh])⟩
  | unions => rfl
  | order =>
    simp only [clauseText]
    split
    · rfl
    · rw [Text.unquoted_append, Text.unquoted_join_map (by decide) fun item hitem =>
        Scope.unquoted_orderItem hs (fun t ht => horder t (List.mem_flatMap.2 ⟨item, hitem, ht⟩))
          fun n hn => horderNames n (List.mem_flatMap.2 ⟨item, hitem, hn⟩)]
      congr 1
  | limit =>
    -- both dialects write limits in the same way
    have hlimit : r.unquoted.dialect.limit = r.dialect.limit := by
      rw [hr.dialect]
      rfl
    rw [clauseText, clauseText, hlimit]
    refine Text.unquoted_of_isOver ?_
    cases d.limit with
    | none => exact Text.isOver_empty
    | some l =>
      refine Text.isOver_append.2 ⟨by decide, ?_⟩
      rw [hr.dialect]
      exact l.notBacktick_text
  | lock =>
    refine Text.unquoted_of_isOver ?_
    simp only [clauseText]
    split
    · next lock hl =>
      split
      · exact Text.isOver_empty
      · exact Text.isOver_append.2 ⟨by decide, hlock lock (by simp [hl])⟩
    · exact Text.isOver_empty
  | comment =>
    refine Text.unquoted_of_isOver ?_
    simp only [clauseText]
    split
    · next comment hc =>
      have hbody : Text.IsOver notBacktick (commentBody comment) :=
        Text.IsOver.trim (Text.isOver_ofList.2 fun c hmem =>
          hcomment comment (by simp [hc]) c (Chars.mem_of_mem_removePair hmem))
      split
      · exact Text.isOver_empty
      · simp only [Text.isOver_append]
        exact ⟨⟨by decide, hbody⟩, by decide⟩
    · exact Text.isOver_empty

end Document

end SqlSelect
