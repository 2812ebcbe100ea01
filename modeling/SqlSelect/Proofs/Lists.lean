import SqlSelect.Proofs.Aliases
import SqlSelect.Proofs.Text.Words

/-!
# Lists in words

Tables, the items of the order and the fields can be declared one by one, as data, or as a list in
words. What is written out of the data is read back as the same declarations.

* `TableSpec.Written`, `OrderItem.Written`, `FieldItem.Written`: how one entry of a list is written.
  No word is reserved: `as`, `desc` and `*` are names like others;
* `Text.map_items_join`: a list is read if its entries are;
* `Call.runAll_map_declare`: declarations that follow each other;
* `Session.run_declare_join`: the lists and the declarations of their entries leave the same session
  behind.
-/

namespace SqlSelect

/-! ### Reading a list -/

namespace Text

/-- What a list is written with has something behind it that is written. -/
theorem exists_of_mem_of_forall₂ {α β : Type} {R : α → β → Prop} {as : List α} {bs : List β}
    (h : List.Forall₂ R as bs) {b : β} (hb : b ∈ bs) : ∃ a, R a b := by
  induction h with
  | nil => cases hb
  | cons hab _ ih =>
    rcases List.mem_cons.1 hb with rfl | hb
    · exact ⟨_, hab⟩
    · exact ih hb

/-- If each entry of a list is written as some words without a comma, and can be read when it is
trimmed, then the list can be read. -/
theorem map_items_join {α β : Type} {Written : α → String → Prop} {read : String → β} {f : α → β}
    (hlacks : ∀ a t, Written a t → Lacks [','] t) (hne : ∀ a t, Written a t → Text.trim t ≠ "")
    (hread : ∀ a t, Written a t → read (Text.trim t) = f a) {as : List α} {ts : List String}
    (h : List.Forall₂ Written as ts) : (items ',' (join "," ts)).map read = as.map f := by
  have hmem : ∀ t ∈ ts, ∃ a, Written a t := fun t ht => exists_of_mem_of_forall₂ h ht
  rw [items_join (fun t ht => ?noComma) fun t ht => ?ne, List.map_map]
  case noComma =>
    obtain ⟨a, hat⟩ := hmem t ht
    exact hlacks a t hat ',' (List.mem_singleton_self _)
  case ne =>
    obtain ⟨a, hat⟩ := hmem t ht
    exact hne a t hat
  induction h with
  | nil => rfl
  | cons hat _ ih =>
    rw [List.map_cons, List.map_cons, Function.comp_apply, hread _ _ hat]
    exact congrArg _ (ih fun t ht => hmem t (List.mem_cons_of_mem _ ht))

end Text

/-! ### Entries of a list -/

/-- A table in a list, perhaps with an alias behind it. A word between them is `as` in any case. -/
inductive TableSpec.Written : String × Option String → String → Prop
  | alone {table text : String} (htable : Text.Lacks [',', ')'] table)
    (htext : Text.Spaced [table] text) : Written (table, none) text
  | short {table short text : String} (htable : Text.Lacks [',', ')'] table)
    (hshort : Text.Lacks [',', ')'] short) (htext : Text.Spaced [table, short] text) :
    Written (table, some short) text
  | keyword {table keyword short text : String} (htable : Text.Lacks [',', ')'] table)
    (hshort : Text.Lacks [',', ')'] short) (has : Text.equalsIgnoringCase keyword "as" = true)
    (htext : Text.Spaced [table, keyword, short] text) : Written (table, some short) text

/-- A field in the order with its direction in words. -/
inductive OrderItem.Written : String × SortDirection → String → Prop
  | ascending {field word text : String} (hfield : Text.Lacks [','] field)
    (hword : Text.equalsIgnoringCase word "asc" = true) (htext : Text.Spaced [field, word] text) :
    Written (field, .ascending) text
  | descending {field word text : String} (hfield : Text.Lacks [','] field)
    (hword : Text.equalsIgnoringCase word "desc" = true) (htext : Text.Spaced [field, word] text) :
    Written (field, .descending) text

/-- The characters of which one makes a text of fields an expression, and the comma. -/
def FieldItem.signs : List Char := [',', '<', '\'', '"', '(']

/-- A selected column with its alias. -/
inductive FieldItem.Written : String × String → String → Prop
  | aliased {column keyword short text : String} (hcolumn : Text.Lacks signs column)
    (hshort : Text.Lacks signs short) (has : Text.equalsIgnoringCase keyword "as" = true)
    (htext : Text.Spaced [column, keyword, short] text) : Written (column, short) text

namespace TableSpec

variable {x : String × Option String} {text : String}

theorem Written.lacks (h : Written x text) : Text.Lacks [',', ')'] text := by
  have hspace : [',', ')'].any Chars.isWhiteSpace = false := by decide
  cases h with
  | alone htable htext => exact htext.lacks hspace (List.forall_mem_singleton.2 htable)
  | short htable hshort htext =>
    exact htext.lacks hspace
      (List.forall_mem_cons.2 ⟨htable, List.forall_mem_singleton.2 hshort⟩)
  | keyword htable hshort has htext =>
    have hkeyword : Text.Lacks [',', ')'] _ := Text.lacks_of_equalsIgnoringCase has (by decide)
    exact htext.lacks hspace
      (List.forall_mem_cons.2 ⟨htable, List.forall_mem_cons.2
        ⟨hkeyword, List.forall_mem_singleton.2 hshort⟩⟩)

/-- Words that can stand in a list of tables are written with `AS` and single spaces. -/
theorem written_of_isWordWithout (htable : Text.IsWordWithout [',', ')'] x.1)
    (hshort : ∀ a ∈ x.2, Text.IsWordWithout [',', ')'] a) :
    Written x ((x.2.map fun a => Text.join " " [x.1, "AS", a]).getD x.1) := by
  obtain ⟨table, short⟩ := x
  cases short with
  | none =>
    exact .alone htable.lacks (Text.spaced_join (List.forall_mem_singleton.2 htable.toIsWord))
  | some a =>
    have ha := hshort a rfl
    refine .keyword htable.lacks ha.lacks (by decide) (Text.spaced_join ?_)
    exact List.forall_mem_cons.2 ⟨htable.toIsWord,
      List.forall_mem_cons.2 ⟨by decide, List.forall_mem_singleton.2 ha.toIsWord⟩⟩

theorem Written.trim_ne_empty (h : Written x text) : Text.trim text ≠ "" := by
  cases h with
  | alone _ htext => exact htext.trim_ne_empty
  | short _ _ htext => exact htext.trim_ne_empty
  | keyword _ _ _ htext => exact htext.trim_ne_empty

theorem Written.entry_trim (h : Written x text) : entry (Text.trim text) = x := by
  unfold entry Name.aliased?
  rw [Text.words_trim]
  cases h with
  | alone _ htext => rw [Text.words_eq_iff.2 htext, htext.trim_eq]
  | short _ _ htext => rw [Text.words_eq_iff.2 htext]
  | keyword _ _ has htext =>
    rw [Text.words_eq_iff.2 htext]
    simp only [has, if_true]

/-- Tables in words are the tables that were written. -/
theorem entries_join {pairs : List (String × Option String)} {texts : List String}
    (h : List.Forall₂ Written pairs texts) :
    (TableSpec.text (Text.join "," texts)).entries = pairs := by
  have hparen : Text.Lacks [')'] (Text.trim (Text.join "," texts)) := by
    refine (Text.lacks_join (by decide) fun t ht => ?_).trim
    obtain ⟨x, hx⟩ := Text.exists_of_mem_of_forall₂ h ht
    exact hx.lacks.mono (by decide)
  have hhas : Text.has (Text.trim (Text.join "," texts)) ')' = false :=
    Text.has_eq_false_iff.2 (hparen ')' (List.mem_singleton_self _))
  have hread : (Text.items ',' (Text.join "," texts)).map entry = pairs.map id :=
    Text.map_items_join (fun _ _ hx => hx.lacks.mono (by decide)) (fun _ _ hx => hx.trim_ne_empty)
      (fun _ _ hx => hx.entry_trim) h
  simp only [entries]
  rw [hhas, if_neg Bool.false_ne_true, Text.items_trim (by decide), hread, List.map_id]

end TableSpec

namespace OrderItem

variable {x : String × SortDirection} {text : String}

/-- A word that can stand in a list is written with the keyword of its direction. -/
theorem written_of_isWordWithout (hfield : Text.IsWordWithout [','] x.1) :
    Written x (Text.join " " [x.1, x.2.keyword]) := by
  obtain ⟨field, direction⟩ := x
  have hwords : ∀ w ∈ [field, direction.keyword], Text.IsWord w :=
    List.forall_mem_cons.2 ⟨hfield.toIsWord,
      List.forall_mem_singleton.2 (by cases direction <;> decide)⟩
  cases direction with
  | ascending =>
    have hword : Text.equalsIgnoringCase "ASC" "asc" = true := by decide
    exact .ascending hfield.lacks hword (Text.spaced_join hwords)
  | descending =>
    have hword : Text.equalsIgnoringCase "DESC" "desc" = true := by decide
    exact .descending hfield.lacks hword (Text.spaced_join hwords)

/-- The words of an item, the second of them for the direction. -/
theorem Written.exists_word (h : Written x text) :
    ∃ word, Text.Spaced [x.1, word] text ∧ Text.Lacks [','] x.1 ∧ Text.Lacks [','] word ∧
      SortDirection.parse? word = some x.2 := by
  cases h with
  | @ascending field word _ hfield hword htext =>
    refine ⟨word, htext, hfield, Text.lacks_of_equalsIgnoringCase hword (by decide), ?_⟩
    rw [SortDirection.parse?, if_pos hword]
  | @descending field word _ hfield hword htext =>
    refine ⟨word, htext, hfield, Text.lacks_of_equalsIgnoringCase hword (by decide), ?_⟩
    have hne : Text.equalsIgnoringCase word "asc" = false := by
      have heq : Text.lowerAscii word = Text.lowerAscii "desc" := eq_of_beq hword
      rw [Text.equalsIgnoringCase, heq]
      decide
    rw [SortDirection.parse?, hne, if_neg Bool.false_ne_true, if_pos hword]

/-- The items of an order in words are the fields and directions that were written. -/
theorem map_ofText_join {items : List (String × SortDirection)} {texts : List String}
    (h : List.Forall₂ Written items texts) :
    (Text.items ',' (Text.join "," texts)).map ofText =
      items.map fun x => .field x.1 (some x.2) := by
  refine Text.map_items_join (fun x t hx => ?lacks) (fun x t hx => ?ne) (fun x t hx => ?read) h
  all_goals obtain ⟨word, htext, hfield, hword, hparse⟩ := hx.exists_word
  case lacks =>
    exact htext.lacks (by decide)
      (List.forall_mem_cons.2 ⟨hfield, List.forall_mem_singleton.2 hword⟩)
  case ne => exact htext.trim_ne_empty
  case read =>
    rw [ofText, Text.words_trim, Text.words_eq_iff.2 htext]
    simp only [hparse]

end OrderItem

namespace FieldItem

variable {x : String × String} {text : String}

/-- Words that can stand in a list of fields are written with `AS` and single spaces. -/
theorem written_of_isWordWithout (hcolumn : Text.IsWordWithout signs x.1)
    (hshort : Text.IsWordWithout signs x.2) : Written x (Text.join " " [x.1, "AS", x.2]) := by
  refine .aliased hcolumn.lacks hshort.lacks (by decide) (Text.spaced_join ?_)
  exact List.forall_mem_cons.2 ⟨hcolumn.toIsWord,
    List.forall_mem_cons.2 ⟨by decide, List.forall_mem_singleton.2 hshort.toIsWord⟩⟩

theorem Written.lacks (h : Written x text) : Text.Lacks signs text := by
  cases h with
  | aliased hcolumn hshort has htext =>
    have hkeyword : Text.Lacks signs _ := Text.lacks_of_equalsIgnoringCase has (by decide)
    exact htext.lacks (by decide)
      (List.forall_mem_cons.2 ⟨hcolumn, List.forall_mem_cons.2
        ⟨hkeyword, List.forall_mem_singleton.2 hshort⟩⟩)

theorem Written.ofText_trim (h : Written x text) : ofText (Text.trim text) = .aliased x.1 x.2 := by
  cases h with
  | aliased _ _ has htext =>
    rw [ofText, Text.words_trim, Text.words_eq_iff.2 htext]
    simp only [has, if_true]

/-- A list of fields in words is no expression and not the star, and its items are the columns and
aliases that were written. -/
theorem addFields_join {pairs : List (String × String)} {texts : List String}
    (h : List.Forall₂ Written pairs texts) (d : Document) :
    d.addFields (Text.join "," texts) =
      pairs.foldl (fun d x => d.addField (.aliased x.1 x.2)) d := by
  have hread : (Text.items ',' (Text.join "," texts)).map ofText =
      pairs.map fun x => .aliased x.1 x.2 :=
    Text.map_items_join (fun _ _ hx => hx.lacks.mono (by decide))
      (fun _ _ hx => by cases hx with | aliased _ _ _ htext => exact htext.trim_ne_empty)
      (fun _ _ hx => hx.ofText_trim) h
  have hstar : Text.trim (Text.join "," texts) ≠ "*" := fun hstar => by
    -- a star is an item without an alias
    have hitems := hread
    rw [← Text.items_trim (by decide), hstar] at hitems
    match pairs with
    | [] => cases hitems
    | x :: xs => cases (List.cons.inj hitems).1
  have hsigns : Text.Lacks ['<', '\'', '"', '('] (Text.trim (Text.join "," texts)) := by
    refine (Text.lacks_join (by decide) fun t ht => ?_).trim
    obtain ⟨x, hx⟩ := Text.exists_of_mem_of_forall₂ h ht
    exact hx.lacks.mono (by decide)
  have hexpression : Document.isFieldExpression (Text.trim (Text.join "," texts)) = false := by
    rw [Document.isFieldExpression, List.any_eq_false]
    exact fun c hc => by simpa [Text.has] using hsigns c hc
  simp only [Document.addFields]
  rw [if_neg hstar, hexpression, if_neg Bool.false_ne_true, Text.items_trim (by decide),
    ← List.foldl_map (f := ofText) (g := fun d x => Document.addField x d), hread, List.foldl_map]

end FieldItem

/-! ### Declarations that follow each other -/

/-- Declarations change the draft and leave the saved document alone. -/
theorem Call.runAll_map_declare (s : Session) (xs : List Declaration) :
    (Call.runAll s (xs.map .declare)).1 = s.withDraft (xs.foldl Draft.declare s.draft) := by
  induction xs generalizing s with
  | nil => rfl
  | cons x xs ih =>
    rw [List.map_cons, Call.runAll_cons, ih]
    rfl

/-- Declarations that need neither the prefix nor the name of the draft change nothing but the
document. -/
theorem Draft.foldl_declare {α : Type} {x : α → Declaration} {f : α → Document → Document}
    (hx : ∀ a pre own doc, Document.declare pre own doc (x a) = f a doc) (as : List α) (d : Draft) :
    (as.map x).foldl declare d =
      { d with document := as.foldl (fun doc a => f a doc) d.document } := by
  induction as generalizing d with
  | nil => rfl
  | cons a as ih =>
    have hstep : d.declare (x a) = { d with document := f a d.document } := by
      rw [declare, hx]
    rw [List.map_cons, List.foldl_cons, ih, hstep]
    rfl

theorem Document.foldl_orderBy (items : List (String × SortDirection)) (d : Document) :
    items.foldl (fun d x => { d with order := d.order ++ [.field x.1 (some x.2)] }) d =
      { d with order := d.order ++ items.map fun x => .field x.1 (some x.2) } := by
  induction items generalizing d with
  | nil =>
    rw [List.map_nil, List.append_nil]
    cases d
    rfl
  | cons x items ih => simp [ih]

/-- Lists in words are read back. Tables with their aliases, an order of fields with their
directions, and columns with their aliases, joined by commas with any white space, come to the same
as the declarations of what was written, whatever was declared before. -/
theorem Session.run_declare_join (s : Session) :
    (∀ pairs texts, List.Forall₂ TableSpec.Written pairs texts →
      (Call.declare (.tables (.text (Text.join "," texts)))).run s =
        (Call.declare (.tables (.list pairs))).run s) ∧
      (∀ items texts, List.Forall₂ OrderItem.Written items texts →
        ((Call.declare (.order (Text.join "," texts))).run s).1 =
          (Call.runAll s (items.map fun x => .declare (.orderBy x.1 x.2))).1) ∧
      ∀ pairs texts, List.Forall₂ FieldItem.Written pairs texts →
        ((Call.declare (.fields (Text.join "," texts))).run s).1 =
          (Call.runAll s (pairs.map fun x => .declare (.fieldAlias x.1 x.2))).1 := by
  refine ⟨fun pairs texts h => ?tables, fun items texts h => ?order, fun pairs texts h => ?fields⟩
  case tables =>
    have hdeclare : s.draft.declare (.tables (.text (Text.join "," texts))) =
        s.draft.declare (.tables (.list pairs)) := by
      simp only [Draft.declare, Document.declare, TableSpec.entries_join h]
      rfl
    rw [Call.run, Call.run, hdeclare]
  case order =>
    have hcalls : (items.map fun x => Call.declare (.orderBy x.1 x.2)) =
        (items.map fun x => Declaration.orderBy x.1 x.2).map .declare := by
      rw [List.map_map]
      rfl
    have hdocument := Document.foldl_orderBy items s.draft.document
    rw [← OrderItem.map_ofText_join h] at hdocument
    rw [hcalls, Call.runAll_map_declare,
      Draft.foldl_declare (f := fun x d => { d with order := d.order ++ [.field x.1 (some x.2)] })
        fun _ _ _ _ => rfl, hdocument]
    rfl
  case fields =>
    have hcalls : (pairs.map fun x => Call.declare (.fieldAlias x.1 x.2)) =
        (pairs.map fun x => Declaration.fieldAlias x.1 x.2).map .declare := by
      rw [List.map_map]
      rfl
    rw [hcalls, Call.runAll_map_declare,
      Draft.foldl_declare (f := fun x d => d.addField (.aliased x.1 x.2)) fun _ _ _ _ => rfl,
      ← FieldItem.addFields_join h]
    rfl

/-- The words for an alias and for a direction, and the star, are names like others. The last list
has a field twice, which is selected once. -/
theorem Session.run_declare_join_keywordSample :
    let s : Session := (Call.runAll ⟨.new {}, none⟩ [.declare (.fields "id")]).1
    let fields := Call.declare (.fields "as AS as,* As desc , as AS as")
    (Call.declare (.tables (.text "as AS as, desc ,\n__USER__  u"))).run s =
        (Call.declare (.tables (.list
          [("as", some "as"), ("desc", none), ("__USER__", some "u")]))).run s ∧
      ((Call.declare (.order "desc DESC, * asc")).run s).1 =
        (Call.runAll s
          [.declare (.orderBy "desc" .descending), .declare (.orderBy "*" .ascending)]).1 ∧
      (fields.run s).1 =
        (Call.runAll s
          [.declare (.fieldAlias "as" "as"), .declare (.fieldAlias "*" "desc"),
            .declare (.fieldAlias "as" "as")]).1 ∧
      (fields.run s).1.draft.document.fields =
        .items [.column "id", .aliased "as" "as", .aliased "*" "desc"] := by
  intro s fields
  obtain ⟨htables, horder, hfields⟩ := Session.run_declare_join s
  refine ⟨htables _ ["as AS as", " desc ", "\n__USER__  u"] ?tables,
    horder [("desc", .descending), ("*", .ascending)] ["desc DESC", " * asc"] ?order,
    hfields [("as", "as"), ("*", "desc"), ("as", "as")]
      ["as AS as", "* As desc ", " as AS as"] ?fields,
    by decide +kernel⟩
  case tables =>
    have has : TableSpec.Written ("as", some "as") "as AS as" :=
      TableSpec.written_of_isWordWithout ⟨by decide, by decide⟩ fun a ha => by
        cases ha
        exact ⟨by decide, by decide⟩
    have hdesc : Text.Spaced ["desc"] " desc " := Text.words_eq_iff.1 (by decide)
    have huser : Text.Spaced ["__USER__", "u"] "\n__USER__  u" := Text.words_eq_iff.1 (by decide)
    exact .cons has
      (.cons (.alone (by decide) hdesc) (.cons (.short (by decide) (by decide) huser) .nil))
  case order =>
    have hdesc : OrderItem.Written ("desc", .descending) "desc DESC" :=
      OrderItem.written_of_isWordWithout ⟨by decide, by decide⟩
    have hstar : Text.Spaced ["*", "asc"] " * asc" := Text.words_eq_iff.1 (by decide)
    exact .cons hdesc (.cons (.ascending (by decide) (by decide) hstar) .nil)
  case fields =>
    have has : FieldItem.Written ("as", "as") "as AS as" :=
      FieldItem.written_of_isWordWithout ⟨by decide, by decide⟩ ⟨by decide, by decide⟩
    have hstar : Text.Spaced ["*", "As", "desc"] "* As desc " := Text.words_eq_iff.1 (by decide)
    have hagain : Text.Spaced ["as", "AS", "as"] " as AS as" := Text.words_eq_iff.1 (by decide)
    exact .cons has
      (.cons (.aliased (by decide) (by decide) (by decide) hstar)
      (.cons (.aliased (by decide) (by decide) (by decide) hagain) .nil))

end SqlSelect
