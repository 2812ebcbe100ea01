import SqlSelect.Proofs.Keys.Requirement
import SqlSelect.Proofs.Text.Words
import SqlSelect.View

/-!
# What a view does to a document

A view is given as pairs of a name and the column behind it. Here is told by rules what it does, all
at once and without a look at the columns that it puts in.

* `View.Gives`, `View.Replaces`, `View.Renames`: what becomes of a name, of a part of a text that
  stands for several fields, and of a whole text;
* `View.renames_iff`: the rules give each text one new text, and it is that of the view;
* `Entry.Renamed`, `Filter.Renamed`, `OrderItem.Renamed`: nothing but the names of fields is new;
* `Document.Viewed`: a document in which only the names are new, those in its subqueries not;
* `Document.viewed_iff`: the rules give each document one new document.
-/

namespace SqlSelect

/-- Lists are related by a function exactly if the one is the image of the other. -/
theorem forall₂_iff_eq_map {α β : Type} {R : α → β → Prop} {g : α → β}
    (h : ∀ a b, R a b ↔ b = g a) {as : List α} {bs : List β} :
    List.Forall₂ R as bs ↔ bs = as.map g := by
  have hR : R = fun a b => g a = b := by
    funext a b
    exact propext ((h a b).trans eq_comm)
  rw [hR, ← List.forall₂_map_left_iff, List.forall₂_eq_eq_eq, eq_comm]

/-! ### Names -/

namespace View

/-- The column behind a name is that of the last pair with the name. -/
def Gives (pairs : List (String × String)) (name column : String) : Prop :=
  ∃ before after, pairs = before ++ (name, column) :: after ∧ ∀ p ∈ after, p.1 ≠ name

/-- What stands in place of a text that is looked up under a name: the column behind the name, or
the text as it is written if there is none. -/
inductive Replaces (pairs : List (String × String)) (name written : String) : String → Prop
  | column {column : String} : Gives pairs name column → Replaces pairs name written column
  | written : (∀ p ∈ pairs, p.1 ≠ name) → Replaces pairs name written written

/-- What stands in place of a field text. -/
inductive Renames (pairs : List (String × String)) : String → String → Prop
  /-- A text without a sign is a name. -/
  | name {name new : String} : '|' ∉ name.toList → '&' ∉ name.toList →
    Replaces pairs name name new → Renames pairs name new
  /-- The parts between the signs are replaced each by itself; the white space around them does not
  count. Where there is a bar, an ampersand is no sign. -/
  | parts {sign : Char} {parts news : List String} :
    sign = '|' ∨ (sign = '&' ∧ ∀ part ∈ parts, '|' ∉ part.toList) →
    (∀ part ∈ parts, sign ∉ part.toList) → 2 ≤ parts.length →
    List.Forall₂ (fun part new => Replaces pairs (Text.trim part) part new) parts news →
    Renames pairs (Text.join (String.singleton sign) parts) (Text.join (String.singleton sign) news)

variable {pairs : List (String × String)} {name written column text new : String}

theorem get?_ofList (pairs : List (String × String)) (name : String) :
    (NameMap.ofList pairs).get? name =
      (pairs.reverse.find? fun p => p.1 = name).map Prod.snd := by
  have hfold := NameMap.get?_foldl_insert Prod.fst Prod.snd pairs {} name
  rw [NameMap.get?_empty, Option.or_none] at hfold
  exact hfold

/-- The last pair with a name is the first one from behind. -/
theorem get?_ofList_eq_some_iff :
    (NameMap.ofList pairs).get? name = some column ↔ Gives pairs name column := by
  rw [get?_ofList, Option.map_eq_some_iff]
  constructor
  · rintro ⟨⟨key, _⟩, hfind, rfl⟩
    obtain ⟨hkey, behind, front, hsplit, hbehind⟩ := List.find?_eq_some_iff_append.1 hfind
    obtain rfl : key = name := by simpa using hkey
    refine ⟨front.reverse, behind.reverse, ?_, fun p hp => ?_⟩
    · rw [← List.reverse_reverse pairs, hsplit]
      simp
    · simpa using hbehind p (List.mem_reverse.1 hp)
  · rintro ⟨before, after, rfl, hafter⟩
    refine ⟨(name, column), List.find?_eq_some_iff_append.2 ⟨by simp, after.reverse,
      before.reverse, by simp, fun p hp => ?_⟩, rfl⟩
    simpa using hafter p (List.mem_reverse.1 hp)

theorem get?_ofList_eq_none_iff :
    (NameMap.ofList pairs).get? name = none ↔ ∀ p ∈ pairs, p.1 ≠ name := by
  rw [get?_ofList, Option.map_eq_none_iff, List.find?_eq_none]
  simp

theorem replaces_iff :
    Replaces pairs name written new ↔
      new = ((NameMap.ofList pairs).get? name).getD written := by
  constructor
  · intro h
    cases h with
    | column h =>
      rw [get?_ofList_eq_some_iff.2 h]
      rfl
    | written h =>
      rw [get?_ofList_eq_none_iff.2 h]
      rfl
  · rintro rfl
    cases hget : (NameMap.ofList pairs).get? name with
    | none => exact .written (get?_ofList_eq_none_iff.1 hget)
    | some column => exact .column (get?_ofList_eq_some_iff.1 hget)

end View

/-! ### Texts that stand for several fields -/

namespace Text

/-- A text with a sign has a part on each side of it. -/
theorem two_le_length_splitOn {sign : Char} {s : String} (h : sign ∈ s.toList) :
    2 ≤ (splitOn sign s).length := by
  have hjoin := join_splitOn sign s
  match hparts : splitOn sign s with
  | [] =>
    rw [hparts] at hjoin
    rw [← hjoin] at h
    cases h
  | [part] =>
    rw [hparts] at hjoin
    have hpart : sign ∉ part.toList := not_mem_of_mem_splitOn (s := s) (by simp [hparts])
    exact absurd h (hjoin ▸ hpart)
  | _ :: _ :: _ => exact Nat.le_add_left 2 _

/-- Joined texts have the sign, and what the texts have. -/
theorem mem_toList_join {sign : Char} {ts : List String} (h : 2 ≤ ts.length) {c : Char} :
    c ∈ (join (String.singleton sign) ts).toList ↔ c = sign ∨ ∃ t ∈ ts, c ∈ t.toList := by
  match ts with
  | [] => cases h
  | [_] => simp at h
  | [s, t] => simp [or_left_comm]
  | s :: t :: u :: ts =>
    have hrest : 2 ≤ (t :: u :: ts).length := Nat.le_add_left 2 _
    rw [join_cons_cons, String.toList_append, String.toList_append, List.mem_append,
      List.mem_append, mem_toList_join hrest, String.toList_singleton, List.mem_singleton,
      List.exists_mem_cons_iff (a := s)]
    tauto

end Text

namespace Name

variable {text : String} {k : Connective} {sign : Char}

theorem fanSign?_eq_none_iff : fanSign? text = none ↔ '|' ∉ text.toList ∧ '&' ∉ text.toList := by
  rw [← Text.has_eq_false_iff, ← Text.has_eq_false_iff, ← fanOut?_eq_none_iff, fanOut?,
    Option.map_eq_none_iff]

theorem fanSign?_eq_some_iff :
    fanSign? text = some (k, sign) ↔
      sign ∈ text.toList ∧
        ((k = .or ∧ sign = '|') ∨ (k = .and ∧ sign = '&' ∧ '|' ∉ text.toList)) := by
  rw [← Text.has_eq_true_iff, ← Text.has_eq_false_iff, fanSign?]
  cases hbar : Text.has text '|' with
  | true =>
    rw [if_pos rfl]
    aesop
  | false =>
    rw [if_neg Bool.false_ne_true]
    cases hamp : Text.has text '&' <;> aesop

end Name

namespace View

variable {pairs : List (String × String)} {text new : String}

/-- The parts that a view puts in, one for each part. -/
theorem forall₂_replaces_iff {parts news : List String} :
    List.Forall₂ (fun part new => Replaces pairs (Text.trim part) part new) parts news ↔
      news = parts.map (part (.ofList pairs)) :=
  forall₂_iff_eq_map fun p new => (replaces_iff : Replaces pairs (Text.trim p) p new ↔ _)

/-- The rules give each text one new text. -/
theorem renames_iff : Renames pairs text new ↔ new = field (.ofList pairs) text := by
  constructor
  · intro h
    cases h with
    | name hbar hamp h =>
      rw [field, Name.fanSign?_eq_none_iff.2 ⟨hbar, hamp⟩]
      exact replaces_iff.1 h
    | @parts sign parts news hsign hfree hlength h =>
      have hfan : ∃ k, Name.fanSign? (Text.join (String.singleton sign) parts) =
          some (k, sign) := by
        have hmem : sign ∈ (Text.join (String.singleton sign) parts).toList :=
          (Text.mem_toList_join hlength).2 (.inl rfl)
        rcases hsign with rfl | ⟨rfl, hbar⟩
        · exact ⟨.or, Name.fanSign?_eq_some_iff.2 ⟨hmem, .inl ⟨rfl, rfl⟩⟩⟩
        · refine ⟨.and, Name.fanSign?_eq_some_iff.2 ⟨hmem, .inr ⟨rfl, rfl, ?_⟩⟩⟩
          rw [Text.mem_toList_join hlength]
          rintro (h | ⟨part, hpart, h⟩)
          · exact absurd h (by decide)
          · exact hbar part hpart h
      obtain ⟨k, hfan⟩ := hfan
      rw [field, hfan]
      dsimp only
      rw [Text.splitOn_join (List.length_pos_iff.1 (by omega)) hfree, forall₂_replaces_iff.1 h]
  · rintro rfl
    unfold field
    cases hfan : Name.fanSign? text with
    | none =>
      obtain ⟨hbar, hamp⟩ := Name.fanSign?_eq_none_iff.1 hfan
      exact .name hbar hamp (replaces_iff.2 rfl)
    | some found =>
      obtain ⟨k, sign⟩ := found
      obtain ⟨hmem, hsign⟩ := Name.fanSign?_eq_some_iff.1 hfan
      have hlength := Text.two_le_length_splitOn hmem
      have hfree : sign = '|' ∨
          (sign = '&' ∧ ∀ part ∈ Text.splitOn sign text, '|' ∉ part.toList) := by
        rcases hsign with ⟨-, hbar⟩ | ⟨-, hamp, hbar⟩
        · exact .inl hbar
        · refine .inr ⟨hamp, fun part hpart hmem => hbar ?_⟩
          rw [← Text.join_splitOn sign text, Text.mem_toList_join hlength]
          exact .inr ⟨part, hpart, hmem⟩
      have hnew := Renames.parts hfree (fun _ hpart => Text.not_mem_of_mem_splitOn hpart) hlength
        (forall₂_replaces_iff.2 (rfl : _ = (Text.splitOn sign text).map (part (.ofList pairs))))
      rwa [Text.join_splitOn] at hnew

end View

/-! ### Conditions and orders -/

mutual

/-- The entry is another one with new names for its fields, also in groups. The conditions on the
fields stay, and so do existence tests. -/
inductive Entry.Renamed (R : String → String → Prop) : Entry → Entry → Prop
  | field {name new : String} {cs : List Condition} : R name new →
    Entry.Renamed R (.field name cs) (.field new cs)
  | raw {sql : String} {binds : List Param} : Entry.Renamed R (.raw sql binds) (.raw sql binds)
  | group {bs ds : List Branch} : Filter.Renamed R bs ds → Entry.Renamed R (.group bs) (.group ds)
  | exist {query : Document} {negated : Bool} :
    Entry.Renamed R (.exist query negated) (.exist query negated)

/-- So it is for each of the entries in their order. -/
inductive Entry.RenamedEach (R : String → String → Prop) : List Entry → List Entry → Prop
  | nil : Entry.RenamedEach R [] []
  | cons {e f : Entry} {es fs : List Entry} : Entry.Renamed R e f → Entry.RenamedEach R es fs →
    Entry.RenamedEach R (e :: es) (f :: fs)

/-- So it is for the entries of each branch; the connectives stay. -/
inductive Filter.Renamed (R : String → String → Prop) : List Branch → List Branch → Prop
  | nil : Filter.Renamed R [] []
  | cons {k : Connective} {es fs : List Entry} {bs ds : List Branch} :
    Entry.RenamedEach R es fs → Filter.Renamed R bs ds →
    Filter.Renamed R (⟨k, es⟩ :: bs) (⟨k, fs⟩ :: ds)

end

/-- The item is another one with a new name for its field. -/
inductive OrderItem.Renamed (R : String → String → Prop) : OrderItem → OrderItem → Prop
  | field {name new : String} {direction : Option SortDirection} : R name new →
    Renamed R (.field name direction) (.field new direction)
  | raw {sql : String} : Renamed R (.raw sql) (.raw sql)

section Renamed

variable {R : String → String → Prop} {f : String → String}

mutual

theorem Entry.renamed_iff (hR : ∀ name new, R name new ↔ new = f name) :
    ∀ e e' : Entry, e.Renamed R e' ↔ e' = Filter.renameEntry f e
  | .field name cs, e' => by
    constructor
    · intro h
      cases h with
      | field h =>
        rw [(hR name _).1 h]
        rfl
    · rintro rfl
      exact .field ((hR name _).2 rfl)
  | .group bs, e' => by
    constructor
    · intro h
      cases h with
      | group h =>
        rw [(Filter.renamed_iff hR bs _).1 h]
        rfl
    · rintro rfl
      exact .group ((Filter.renamed_iff hR bs _).2 rfl)
  | .raw sql binds, e' => by
    constructor
    · rintro ⟨⟩
      rfl
    · rintro rfl
      exact .raw
  | .exist query negated, e' => by
    constructor
    · rintro ⟨⟩
      rfl
    · rintro rfl
      exact .exist

theorem Entry.renamedEach_iff (hR : ∀ name new, R name new ↔ new = f name) :
    ∀ es es' : List Entry, Entry.RenamedEach R es es' ↔ es' = Filter.renameEntries f es
  | [], es' => by
    constructor
    · rintro ⟨⟩
      rfl
    · rintro rfl
      exact .nil
  | e :: es, es' => by
    constructor
    · intro h
      cases h with
      | cons he hes =>
        rw [(Entry.renamed_iff hR e _).1 he, (Entry.renamedEach_iff hR es _).1 hes]
        rfl
    · rintro rfl
      exact .cons ((Entry.renamed_iff hR e _).2 rfl) ((Entry.renamedEach_iff hR es _).2 rfl)

/-- If each name has one new name then each clause has one new clause. -/
theorem Filter.renamed_iff (hR : ∀ name new, R name new ↔ new = f name) :
    ∀ bs bs' : List Branch, Filter.Renamed R bs bs' ↔ bs' = Filter.renameFields f bs
  | [], bs' => by
    constructor
    · rintro ⟨⟩
      rfl
    · rintro rfl
      exact .nil
  | ⟨k, es⟩ :: bs, bs' => by
    constructor
    · intro h
      cases h with
      | cons hes hbs =>
        rw [(Entry.renamedEach_iff hR es _).1 hes, (Filter.renamed_iff hR bs _).1 hbs]
        rfl
    · rintro rfl
      exact .cons ((Entry.renamedEach_iff hR es _).2 rfl) ((Filter.renamed_iff hR bs _).2 rfl)

end

end Renamed

theorem OrderItem.renamed_iff {R : String → String → Prop} {v : NameMap}
    (hR : ∀ name new, R name new ↔ new = View.column v name) (x y : OrderItem) :
    x.Renamed R y ↔ y = View.orderItem v x := by
  constructor
  · rintro (h | _)
    · rw [(hR _ _).1 h]
      rfl
    · rfl
  · rintro rfl
    cases x with
    | field name direction => exact .field ((hR _ _).2 rfl)
    | raw sql => exact .raw

/-! ### Documents -/

/-- The document is another one as it is seen through a view of the pairs. -/
structure Document.Viewed (pairs : List (String × String)) (plain doc : Document) : Prop where
  filter : Filter.Renamed (View.Renames pairs) plain.filter doc.filter
  /-- In the order, a field text is one name whatever signs it has. -/
  order : List.Forall₂ (OrderItem.Renamed fun name => View.Replaces pairs name name) plain.order
    doc.order
  /-- All else is as it was, but that the document tells of its view. -/
  rest : { doc with filter := [], order := [] } =
    { plain with filter := [], order := [], view := some (.ofList pairs) }

/-- The rules give each document one new document. -/
theorem Document.viewed_iff {pairs : List (String × String)} {plain doc : Document} :
    Document.Viewed pairs plain doc ↔
      doc = View.apply (.ofList pairs) { plain with view := some (.ofList pairs) } := by
  have hfilter : Filter.Renamed (View.Renames pairs) plain.filter doc.filter ↔
      doc.filter = Filter.renameFields (View.field (.ofList pairs)) plain.filter :=
    Filter.renamed_iff (R := View.Renames pairs) (fun _ _ => View.renames_iff) _ _
  have horder : List.Forall₂ (OrderItem.Renamed fun name => View.Replaces pairs name name)
      plain.order doc.order ↔ doc.order = plain.order.map (View.orderItem (.ofList pairs)) :=
    forall₂_iff_eq_map (OrderItem.renamed_iff fun _ _ => View.replaces_iff)
  constructor
  · rintro ⟨hf, ho, hrest⟩
    rw [hfilter] at hf
    rw [horder] at ho
    cases doc
    cases hrest
    cases hf
    cases ho
    rfl
  · rintro rfl
    exact ⟨hfilter.2 rfl, horder.2 rfl, rfl⟩

end SqlSelect
