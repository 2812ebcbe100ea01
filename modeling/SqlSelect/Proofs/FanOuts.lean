import SqlSelect.Proofs.Subqueries.Places

/-!
# Conditions on several fields

A field text may stand for several fields. Its conditions are then written for each of them, as a
group of plain entries would be.

* `Entry.spread`: the group that has one entry for each of the names;
* `Entry.render_spread`: the group is rendered as the entry of the field text is;
* `Entry.buried`, `Place.render_fillAll_congr`: entries that are rendered alike may stand for each
  other at any depth, in groups and in subqueries;
* `Entry.emit_spread`: the entry and the group come to the same text and the same parameters, behind
  whatever parameters there are, and to the same statement of any document around them.
-/

namespace SqlSelect

open Fragment

/-- The group of the same conditions on each of some names. -/
def Entry.spread (k : Connective) (names : List String) (cs : List Condition) : Entry :=
  .group [⟨k, names.map fun n => .field n cs⟩]

/-! ### One entry -/

/-- Conditions on a field have text, if there are any. -/
theorem Entry.isEmpty_render_field (s : Scope) (name : String) {cs : List Condition}
    (hcs : cs ≠ []) : ((Entry.field name cs).render s).isEmpty = false := by
  obtain ⟨c, cs, rfl⟩ := List.exists_cons_of_ne_nil hcs
  have hwrite := write_fieldTerm s name c cs
  simp only [Entry.render, Condition.renderEach_eq_map]
  rw [← hwrite]
  exact isEmpty_write_fieldTerm s name c cs

/-- Conditions on a field without a sign are written once, for the field as it is. -/
theorem Entry.render_field_of_none (s : Scope) {name : String} (h : Name.fanOut? name = none)
    (cs : List Condition) :
    (Entry.field name cs).render s = conjoined (Condition.renderEach s (s.key name) cs) := by
  rw [Entry.render, renderField, h]

/-- No entry of the group is left out, and each is written as the conditions on its name are in the
one entry. -/
theorem Entry.visible_renderEach_names (s : Scope) {names : List String} {cs : List Condition}
    (hplain : ∀ n ∈ names, Name.fanOut? n = none) (hcs : cs ≠ []) :
    visible (Entry.renderEach s (names.map fun n => .field n cs)) =
      names.map fun n => conjoined (Condition.renderEach s (s.key n) cs) := by
  rw [Entry.renderEach_eq_map, List.map_map, visible, List.filter_eq_self.2]
  · exact List.map_congr_left fun n hn => Entry.render_field_of_none s (hplain n hn) cs
  · refine List.forall_mem_map.2 fun n _ => ?_
    rw [Function.comp_apply, Entry.isEmpty_render_field s n hcs]
    rfl

/-- The group of plain entries is rendered as the one entry of the field text is. -/
theorem Entry.render_spread (s : Scope) {field : String} {k : Connective} {names : List String}
    {cs : List Condition} (hfan : Name.fanOut? field = some (k, names)) (hnames : names ≠ [])
    (hplain : ∀ n ∈ names, Name.fanOut? n = none) (hcs : cs ≠ []) :
    (Entry.spread k names cs).render s = (Entry.field field cs).render s := by
  let parts := names.map fun n => conjoined (Condition.renderEach s (s.key n) cs)
  have hlone : Junction.renderAll (Branch.renderEach s [⟨k, names.map fun n => .field n cs⟩]) =
      (Junction.mk k parts).render := by
    rw [Branch.renderEach, Branch.render, Branch.renderEach,
      Entry.visible_renderEach_names s hplain hcs]
    exact Junction.renderAll_singleton (by simpa [parts] using hnames)
  -- there is text in the group, so that it has its parentheses
  have htext : (Junction.mk k parts).render.isEmpty = false := by
    obtain ⟨n, hn⟩ := List.exists_mem_of_ne_nil names hnames
    have hsql : (conjoined (Condition.renderEach s (s.key n) cs)).sql ≠ "" := by
      rw [← Entry.render_field_of_none s (hplain n hn), ne_eq, ← Fragment.isEmpty_iff,
        Entry.isEmpty_render_field s n hcs]
      exact Bool.false_ne_true
    rw [Bool.eq_false_iff, ne_eq, Fragment.isEmpty_iff]
    exact sql_ne_empty_of_infix (Junction.infix_render (List.mem_map_of_mem hn)) hsql
  rw [spread, Entry.render, Entry.render, hlone, enclosedIfAny, htext, renderField, hfan]
  rfl

/-! ### Entries at any depth -/

/-- The entry inside of groups, each with other entries around. -/
def Entry.buried (arounds : List Surroundings) (e : Entry) : Entry :=
  arounds.foldr (fun around e => .group (around.fill e)) e

/-- Branches around entries that are rendered alike. -/
theorem Surroundings.renderEach_fill_congr {s : Scope} {e e' : Entry}
    (h : e.render s = e'.render s) (around : Surroundings) :
    Branch.renderEach s (around.fill e) = Branch.renderEach s (around.fill e') := by
  simp only [fill, Branch.renderEach_eq_map, List.map_append, List.map_cons, Branch.render,
    Entry.renderEach_eq_map, h]

theorem Entry.render_buried_congr {s : Scope} {e e' : Entry} (h : e.render s = e'.render s)
    (arounds : List Surroundings) : (e.buried arounds).render s = (e'.buried arounds).render s := by
  induction arounds with
  | nil => exact h
  | cons around arounds ih =>
    show (Entry.group (around.fill (e.buried arounds))).render s =
      (Entry.group (around.fill (e'.buried arounds))).render s
    rw [Entry.render, Entry.render, around.renderEach_fill_congr ih]

/-- Subqueries that are rendered alike may stand for each other in a WHERE clause. -/
theorem EntryPlace.render_fill_congr {s : Scope} {q q' : Document}
    (h : q.render s.renderer = q'.render s.renderer) (place : EntryPlace) :
    (place.fill q).render s = (place.fill q').render s := by
  induction place with
  | inQuery field before after negated =>
    simp only [fill, Entry.render, Condition.renderEach_eq_map, List.map_append, List.map_cons,
      Condition.render, h]
  | exist negated => simp only [fill, Entry.render, h]
  | group around inner ih => simp only [fill, Entry.render, around.renderEach_fill_congr ih]

/-- So they may in a document. -/
theorem Place.render_fill_congr {r : Renderer} {q q' : Document} (h : q.render r = q'.render r)
    (place : Place) : (place.fill q).render r = (place.fill q').render r := by
  rw [Document.render_eq_fill, Document.render_eq_fill]
  congr 1
  funext slot
  cases place with
  | filter d around inner =>
    have hinner := inner.render_fill_congr (s := d.scope r) h
    cases slot with
    | filter =>
      simp only [fill, Document.renderClause, Document.renderFilter]
      have hbranches := around.renderEach_fill_congr hinner
      exact congrArg (fun body => renderWhere (renderBesides (Junction.renderAll body) _)) hbranches
    | _ => rfl
  | softDelete d field negated =>
    cases slot with
    | filter =>
      simp only [fill, Document.renderClause, Document.renderFilter, Option.map_some,
        SoftDelete.render, Condition.render, Document.scope, h]
    | _ => rfl
  | union d before after all =>
    cases slot with
    | unions =>
      simp only [fill, Document.renderClause, UnionItem.renderAll_eq_flatMap, List.flatMap_append,
        List.flatMap_cons, UnionItem.render, h]
    | _ => rfl

theorem Place.render_fillAll_congr {r : Renderer} {q q' : Document} (h : q.render r = q'.render r)
    (places : List Place) : (fillAll places q).render r = (fillAll places q').render r := by
  induction places with
  | nil => exact h
  | cons place places ih => exact place.render_fill_congr ih

/-- Only the outermost document says whether the statement is to be shown. -/
theorem Place.fetchSql_fillAll {q q' : Document} (h : q.fetchSql = q'.fetchSql)
    (places : List Place) : (fillAll places q).fetchSql = (fillAll places q').fetchSql := by
  cases places with
  | nil => exact h
  | cons place places => cases place <;> rfl

/-- A document in which one entry, at any depth, stands for another that is rendered alike. -/
theorem Renderer.select_buried_congr {r : Renderer} {d : Document} {e e' : Entry}
    (h : e.render (d.scope r) = e'.render (d.scope r)) (around : Surroundings)
    (arounds : List Surroundings) (places : List Place) :
    r.select (Place.fillAll places { d with filter := around.fill (e.buried arounds) }) =
      r.select (Place.fillAll places { d with filter := around.fill (e'.buried arounds) }) := by
  have hbranches := around.renderEach_fill_congr (Entry.render_buried_congr h arounds)
  have hdocument : Document.render r { d with filter := around.fill (e.buried arounds) } =
      Document.render r { d with filter := around.fill (e'.buried arounds) } := by
    rw [Document.render_eq_fill, Document.render_eq_fill]
    congr 1
    funext slot
    cases slot with
    | filter =>
      exact congrArg (fun body => renderWhere (renderBesides (Junction.renderAll body) _)) hbranches
    | _ => rfl
  rw [Renderer.select, Renderer.select, Place.render_fillAll_congr hdocument places]
  exact congrArg (Statement.ofFragment _) (Place.fetchSql_fillAll (by rfl) places)

/-! ### The entry and the group -/

/-- A field text that stands for several fields is a group of plain entries. Behind whatever
parameters there are, the entry and the group come to the same text and add the same parameters. So
any document has the same statement with the one and with the other, wherever they stand: at the
top, in groups of any depth, in subqueries of any depth. -/
theorem Entry.emit_spread {field : String} {k : Connective} {names : List String}
    {cs : List Condition} (hfan : Name.fanOut? field = some (k, names)) (hnames : names ≠ [])
    (hplain : ∀ n ∈ names, '|' ∉ n.toList ∧ '&' ∉ n.toList) (hcs : cs ≠ []) :
    (∀ (s : Scope) (before : List Param),
      ((Entry.field field cs).emit s).run before = ((Entry.spread k names cs).emit s).run before) ∧
    ∀ (r : Renderer) (d : Document) (around : Surroundings) (arounds : List Surroundings)
      (places : List Place),
      r.select (Place.fillAll places
        { d with filter := around.fill ((Entry.field field cs).buried arounds) }) =
      r.select (Place.fillAll places
        { d with filter := around.fill ((Entry.spread k names cs).buried arounds) }) := by
  have hlone (n) (hn : n ∈ names) : Name.fanOut? n = none := by
    rw [Name.fanOut?_eq_none_iff]
    simpa [Text.has] using hplain n hn
  have hrender (s : Scope) := Entry.render_spread s hfan hnames hlone hcs
  refine ⟨fun s before => ?_, fun r d around arounds places => ?_⟩
  · rw [emit_induction.ofEntry (.field field cs) s before,
      emit_induction.ofEntry (.spread k names cs) s before, hrender s]
  · exact Renderer.select_buried_congr (hrender (d.scope r)).symm around arounds places

/-- Conditions on two fields, of which one has a white space around it: a list, raw SQL with a bind,
and membership in a subquery. -/
def Entry.fanSample : List Condition :=
  [.inList [.int 1, .int 2] true, .exp "> ?" [.positional (.text "x|y")],
    .inQuery { tables := ["log"], filter := [⟨.and, [.field "b" [.compare .eq (.int 3)]]⟩] } false]

/-- The conditions stand once for each name, in a statement in which they are in a group of a
subquery. -/
theorem Entry.emit_spread_fanSample :
    Name.fanOut? "a | t.b" = some (.or, ["a", "t.b"]) ∧
      ((Entry.field "a | t.b" Entry.fanSample).emit ⟨{}, {}⟩).run [.named "n" .null] =
        ((Entry.group [⟨.or, [.field "a" Entry.fanSample, .field "t.b" Entry.fanSample]⟩]).emit
          ⟨{}, {}⟩).run [.named "n" .null] ∧
      ∀ d : Document, Renderer.select {} (Place.fillAll [.union d [] [] true]
          { tables := ["t"], filter := [⟨.xor, [.group [⟨.and,
            [.raw "1" [], .field "a | t.b" Entry.fanSample]⟩]]⟩] }) =
        Renderer.select {} (Place.fillAll [.union d [] [] true]
          { tables := ["t"], filter := [⟨.xor, [.group [⟨.and, [.raw "1" [], .group [⟨.or,
            [.field "a" Entry.fanSample, .field "t.b" Entry.fanSample]⟩]]⟩]]⟩] }) := by
  have hfan : Name.fanOut? "a | t.b" = some (.or, ["a", "t.b"]) := by decide +kernel
  obtain ⟨hemit, hselect⟩ := Entry.emit_spread hfan (List.cons_ne_nil _ _) (by decide)
    (List.cons_ne_nil _ _ : Entry.fanSample ≠ [])
  refine ⟨hfan, hemit _ _, fun d => ?_⟩
  exact hselect {} { tables := ["t"] } ⟨[], .xor, [], [], []⟩ [⟨[], .and, [.raw "1" []], [], []⟩]
    [.union d [] [] true]

end SqlSelect
