import SqlSelect.Proofs.Clauses
import SqlSelect.Render

/-!
# Documents write their leaves

* `Fragment.Writes ls f`: the fragment `f` writes the leaves `ls` one after the other, each behind
  inert text or behind a part that it cannot be mistaken to go on;
* `Document.writes_render`: a rendered document writes its leaves, provided that its texts are
  inert;
* `Document.params_render`: the parameters of a rendered document are those of its leaves.

What a fragment is to satisfy is shown once for each way to write (`Fragment.Writes` has six), and
not for each of the places in which a clause is rendered.
-/

namespace SqlSelect

open Placeholder

namespace Fragment

/-! ### Writing leaves -/

/-- The fragment writes the leaves one after the other. -/
inductive Writes : List Leaf → Fragment → Prop
  /-- Nothing is written. -/
  | nil : Writes [] []
  /-- An inert text may stand in front of anything. -/
  | text {t : String} {ls : List Leaf} {f : Fragment} :
    Text.IsOver isInert t → Writes ls f → Writes ls (.text t :: f)
  | value (v : Value) : Writes [.value v] [.mark v]
  | operand {t : String} (sql : String) :
    Text.IsOver isInert t → t ≠ "" → Writes [.operand sql] [.text (t ++ sql)]
  | raw {t : String} (sql : String) (binds : List Param) :
    Text.IsOver isInert t → t ≠ "" → Writes [.raw sql binds] [.text t, .raw sql binds]
  /-- A calm part may stand behind anything. -/
  | append {ls ms : List Leaf} {f g : Fragment} :
    Writes ls f → Writes ms g → isCalm g.sql = true → Writes (ls ++ ms) (f ++ g)

/-- Each of the fragments writes its share of the leaves. -/
inductive WritesEach : List Leaf → List Fragment → Prop
  | nil : WritesEach [] []
  | cons {ls ms : List Leaf} {f : Fragment} {fs : List Fragment} :
    Writes ls f → WritesEach ms fs → WritesEach (ls ++ ms) (f :: fs)

variable {ls ms : List Leaf} {f g : Fragment} {fs : List Fragment}

theorem Writes.ofText {t : String} (h : Text.IsOver isInert t) : Writes [] (ofText t) :=
  .text h .nil

/-- A fragment without text writes nothing. -/
theorem Writes.eq_nil_of_sql_eq_empty (h : Writes ls f) (hf : f.sql = "") : ls = [] := by
  induction h with
  | nil => rfl
  | text _ _ ih =>
    rw [sql_cons, String.append_eq_empty_iff] at hf
    exact ih hf.2
  | value v => exact absurd hf (by simp [Piece.sql])
  | operand sql _ ht =>
    rw [sql_cons, sql_nil, String.append_eq_empty_iff] at hf
    exact absurd (String.append_eq_empty_iff.1 hf.1).1 ht
  | raw sql binds _ ht =>
    rw [sql_cons, String.append_eq_empty_iff] at hf
    exact absurd hf.1 ht
  | append _ _ _ ihf ihg =>
    rw [sql_append, String.append_eq_empty_iff] at hf
    rw [ihf hf.1, ihg hf.2]
    rfl

/-- The parameters of a fragment are those of the leaves that it writes. -/
theorem Writes.params_eq (h : Writes ls f) : f.params = ls.flatMap Leaf.params := by
  induction h with
  | nil => rfl
  | text _ _ ih => simpa [Piece.params] using ih
  | value v => rfl
  | operand sql _ _ => rfl
  | raw sql binds _ _ => simp [Piece.params, Leaf.params]
  | append _ _ _ ihf ihg => simp [ihf, ihg]

/-! ### Putting fragments together -/

/-- Inert texts in front of a fragment. -/
theorem Writes.texts_append {ts : List String} (ht : ∀ t ∈ ts, Text.IsOver isInert t)
    (h : Writes ls f) : Writes ls (ts.map .text ++ f) := by
  induction ts with
  | nil => exact h
  | cons t ts ih =>
    exact .text (ht t List.mem_cons_self) (ih fun u hu => ht u (List.mem_cons_of_mem _ hu))

theorem isCalm_texts_append {ts : List String} (ht : ∀ t ∈ ts, isCalm t = true)
    (h : isCalm f.sql = true) : isCalm (sql (ts.map .text ++ f)) = true := by
  induction ts with
  | nil => exact h
  | cons t ts ih =>
    exact isCalm_append (ht t List.mem_cons_self) (ih fun u hu => ht u (List.mem_cons_of_mem _ hu))

theorem Writes.within {before after : String} (h : Writes ls f)
    (hb : Text.IsOver isInert before) (ha : Text.IsOver isInert after)
    (hc : isCalm after = true) : Writes ls (within before after f) := by
  have h2 : Writes (ls ++ []) (f ++ [.text after]) :=
    h.append (.text ha .nil) (by simpa [Piece.sql] using hc)
  rw [List.append_nil] at h2
  exact .text hb h2

theorem Writes.enclosed (h : Writes ls f) : Writes ls f.enclosed :=
  h.within (by decide) (by decide) (by decide)

/-- Raw SQL with its binds, between parentheses. -/
theorem Writes.rawWithin {t : String} (sql : String) (binds : List Param)
    (h : Text.IsOver isInert t) (hne : t ≠ "") :
    Writes [.raw sql binds] (Fragment.within t ")" [.raw sql binds]) := by
  have htail : Writes [] [.text ")"] := .ofText (by decide)
  exact (Writes.raw sql binds h hne).append htail (by decide)

theorem Writes.enclosedIfAny (h : Writes ls f) : Writes ls f.enclosedIfAny := by
  unfold Fragment.enclosedIfAny
  split
  · next hf =>
    rw [h.eq_nil_of_sql_eq_empty (isEmpty_iff.1 hf)]
    exact .nil
  · exact h.enclosed

/-- What is left out of a list because it has no text writes nothing. -/
theorem WritesEach.visible (h : WritesEach ls fs) : WritesEach ls (visible fs) := by
  induction h with
  | nil => exact .nil
  | @cons ls ms f fs hf _ ih =>
    -- a fragment is left out for its text, but without text it has no parameters either
    by_cases hempty : f.isEmpty = true
    · have hls := hf.eq_nil_of_sql_eq_empty (isEmpty_iff.1 hempty)
      simpa [Fragment.visible, hempty, hls] using ih
    · have hcons : Fragment.visible (f :: fs) = f :: Fragment.visible fs := by
        simp [Fragment.visible, hempty]
      rw [hcons]
      exact .cons hf ih

theorem WritesEach.singleton (h : Writes ls f) : WritesEach ls [f] := by
  rw [← List.append_nil ls]
  exact .cons h .nil

theorem WritesEach.of_singleton (h : WritesEach ls [f]) : Writes ls f := by
  cases h with
  | cons hf hnil =>
    cases hnil
    rw [List.append_nil]
    exact hf

theorem WritesEach.join (h : WritesEach ls fs) {sep : String} (hs : Text.IsOver isInert sep)
    (hc : isCalm sep = true) (hne : sep ≠ "") : Writes ls (join sep fs) := by
  induction h with
  | nil => exact .nil
  | @cons ls ms f fs hf htail ih =>
    cases htail with
    | nil =>
      rw [List.append_nil]
      exact hf
    | cons hg hgs => exact hf.append (.text hs ih) (isCalm_append_of_ne_empty hc hne _)

theorem WritesEach.conjoined (h : WritesEach ls fs) : Writes ls (conjoined fs) := by
  match fs with
  | [] =>
    cases h
    exact .nil
  | [f] => exact h.of_singleton
  | f :: g :: fs => exact (h.join (by decide) (by decide) (by decide)).enclosed

theorem WritesEach.marks (vs : List Value) :
    WritesEach (vs.map .value) (vs.map fun v => [.mark v]) := by
  induction vs with
  | nil => exact .nil
  | cons v vs ih => exact .cons (.value v) ih

/-- Fragments that each write what is written for one member of a list. -/
theorem WritesEach.map {α : Type} {leaves : α → List Leaf} {render : α → Fragment} (as : List α)
    (h : ∀ a ∈ as, Writes (leaves a) (render a)) :
    WritesEach (as.flatMap leaves) (as.map render) := by
  induction as with
  | nil => exact .nil
  | cons a as ih =>
    rw [List.flatMap_cons, List.map_cons]
    exact .cons (h a List.mem_cons_self) (ih fun b hb => h b (List.mem_cons_of_mem _ hb))

end Fragment

/-! ### Junctions -/

namespace Junction

open Fragment

theorem isInert_separator (k : Connective) : Text.IsOver isInert (separator k) := by
  cases k <;> decide

theorem isCalm_separator (k : Connective) : isCalm (separator k) = true := by
  cases k <;> decide

theorem separator_ne_empty (k : Connective) : separator k ≠ "" := by
  cases k <;> decide

variable {ls : List Leaf}

theorem writes_render {k : Connective} {fs : List Fragment} (h : WritesEach ls fs) :
    Writes ls (Junction.mk k fs).render :=
  h.join (isInert_separator k) (isCalm_separator k) (separator_ne_empty k)

theorem isCalm_renderRest (js : List Junction) : isCalm (renderRest js).sql = true := by
  cases js with
  | nil => rfl
  | cons j js =>
    exact isCalm_append_of_ne_empty (isCalm_separator _) (separator_ne_empty _) _

theorem writes_renderRest {js : List Junction} (h : WritesEach ls (js.map render)) :
    Writes ls (renderRest js) := by
  induction js generalizing ls with
  | nil =>
    cases h
    exact .nil
  | cons j js ih =>
    cases h with
    | cons hj hjs =>
      exact .text (isInert_separator _) (hj.enclosed.append (ih hjs) (isCalm_renderRest js))

theorem writes_renderNonempty {js : List Junction} (h : WritesEach ls (js.map render)) :
    Writes ls (renderNonempty js) := by
  match js with
  | [] =>
    cases h
    exact .nil
  | [j] => exact h.of_singleton
  | j :: i :: js =>
    cases h with
    | cons hj hjs =>
      exact hj.enclosed.append (writes_renderRest hjs) (isCalm_renderRest (i :: js))

/-- Junctions write what each of them does; those without conditions write nothing. -/
theorem writes_renderAll {js : List Junction} (h : WritesEach ls (js.map render)) :
    Writes ls (renderAll js) := by
  refine writes_renderNonempty ?_
  induction js generalizing ls with
  | nil => exact h
  | cons j js ih =>
    cases h with
    | @cons ls ms _ _ hj hjs =>
      by_cases hparts : j.parts = []
      · have hnil : ls = [] := hj.eq_nil_of_sql_eq_empty (by rw [render, hparts]; rfl)
        simpa [hparts, hnil] using ih hjs
      · have hcons : (j :: js).filter (fun i => !i.parts.isEmpty) =
            j :: js.filter fun i => !i.parts.isEmpty := by simp [hparts]
        rw [hcons, List.map_cons]
        exact .cons hj (ih hjs)

end Junction

/-! ### Conditions -/

open Fragment

/-- Are the texts without binds among the leaves inert? -/
def Leaf.AreInert (ls : List Leaf) : Prop := ∀ t, Leaf.text t ∈ ls → Text.IsOver isInert t

namespace Leaf

theorem AreInert.mono {ls ms : List Leaf} (h : AreInert ls) (hm : ∀ l ∈ ms, l ∈ ls) :
    AreInert ms := fun t ht => h t (hm _ ht)

theorem areInert_append {ls ms : List Leaf} :
    AreInert (ls ++ ms) ↔ AreInert ls ∧ AreInert ms := by
  simp [AreInert, or_imp, forall_and]

theorem areInert_map_text {ts : List String} :
    AreInert (ts.map .text) ↔ ∀ t ∈ ts, Text.IsOver isInert t := by
  simp [AreInert]

/-- The texts under each member of a list. -/
theorem AreInert.of_mem {α : Type} {leaves : α → List Leaf} {as : List α}
    (h : AreInert (as.flatMap leaves)) {a : α} (ha : a ∈ as) : AreInert (leaves a) :=
  h.mono fun _ hl => List.mem_flatMap.2 ⟨a, ha, hl⟩

end Leaf

theorem isInert_negation (negated : Bool) : Text.IsOver isInert (negation negated) := by
  cases negated <;> decide

/-- What stands between a field and the operand of a condition that may be negated. -/
theorem isInert_negated {key after : String} (hk : Text.IsOver isInert key) (negated : Bool)
    (ha : Text.IsOver isInert after) :
    Text.IsOver isInert (key ++ " " ++ negation negated ++ after) := by
  simp only [Text.isOver_append]
  exact ⟨⟨⟨hk, by decide⟩, isInert_negation _⟩, ha⟩

theorem Comparison.isInert_sql (op : Comparison) : Text.IsOver isInert op.sql := by
  cases op <;> decide

variable {key : String}

/-- A comparison is a test for null, or it has a mark. -/
theorem Comparison.isNullTest_or (op : Comparison) (v : Value) :
    op = .eq ∧ v = .null ∨ op = .neq ∧ v = .null ∨
      op.leaves v = [.value v] ∧
        ∀ key, op.render key v = [.text (key ++ " " ++ op.sql ++ " "), .mark v] := by
  cases op <;> cases v <;> simp [leaves, render]

theorem Comparison.writes_render (op : Comparison) (hk : Text.IsOver isInert key) (v : Value) :
    Writes (Leaf.bound (op.leaves v)) (op.render key v) := by
  rcases op.isNullTest_or v with ⟨rfl, rfl⟩ | ⟨rfl, rfl⟩ | ⟨hleaves, hrender⟩
  · exact .ofText (Text.isOver_append.2 ⟨hk, by decide⟩)
  · exact .ofText (Text.isOver_append.2 ⟨hk, by decide⟩)
  · rw [hleaves, hrender]
    refine .text ?_ (.value v)
    simp only [Text.isOver_append]
    exact ⟨⟨⟨hk, by decide⟩, op.isInert_sql⟩, by decide⟩

theorem bound_map_value (vs : List Value) :
    Leaf.bound (vs.map .value) = vs.map Leaf.value := by
  simp [Leaf.bound, Leaf.isText]

theorem writes_renderMembers (hk : Text.IsOver isInert key) (vs : List Value) (negated : Bool) :
    Writes (vs.map .value) (renderMembers key vs negated) := by
  cases vs with
  | nil => cases negated <;> exact .ofText (by decide)
  | cons v vs =>
    have hmarks : Writes ((v :: vs).map .value) (Fragment.marks (v :: vs)) :=
      (WritesEach.marks (v :: vs)).join (by decide) (by decide) (by decide)
    exact hmarks.within (isInert_negated hk negated (by decide)) (by decide) (by decide)

theorem writes_between (hk : Text.IsOver isInert key) (low high : Value) (negated : Bool) :
    Writes [.value low, .value high] [.text (key ++ " " ++ negation negated ++ "BETWEEN "),
      .mark low, .text " AND ", .mark high] := by
  have hand : Writes [.value high] [.text " AND ", .mark high] := .text (by decide) (.value high)
  refine .text (isInert_negated hk negated (by decide)) ((Writes.value low).append hand ?_)
  exact isCalm_append_of_ne_empty (by decide) (by decide) _

/-- The conditions on a field text are written for each of the fields that it stands for. -/
theorem writes_renderField {s : Scope} (hs : s.IsOver isInert) {field : String}
    (hf : Text.IsOver isInert field) {ls : List Leaf} {conditions : String → List Fragment}
    (h : ∀ n ∈ Name.fields field, ∀ key, Text.IsOver isInert key → WritesEach ls (conditions key)) :
    Writes ((Name.fields field).flatMap fun _ => ls) (renderField s field conditions) := by
  have hname : ∀ n ∈ Name.fields field, Writes ls (.conjoined (conditions (s.key n))) :=
    fun n hn => (h n hn _ (Scope.isOver_key hs (Name.isOver_of_mem_fields hf hn))).conjoined
  unfold renderField
  split
  · next k names hfan =>
    rw [Name.fields_of_fanOut? hfan] at hname ⊢
    exact (Junction.writes_render (WritesEach.map names hname)).enclosed
  · next hfan =>
    rw [Name.fields_of_none hfan] at hname ⊢
    simpa using hname field (by simp)

/-! ### Documents -/

theorem writes_renderBesides {ls ms : List Leaf} {body soft : Fragment} (hb : Writes ls body)
    (hs : Writes ms soft) : Writes (ls ++ ms) (renderBesides body (some soft)) := by
  have h : WritesEach (ls ++ (ms ++ [])) [body.enclosedIfAny, soft] :=
    .cons hb.enclosedIfAny (.cons hs .nil)
  rw [List.append_nil] at h
  exact Junction.writes_render h.visible

theorem writes_renderWhere {ls : List Leaf} {body : Fragment} (h : Writes ls body) :
    Writes ls (renderWhere body) := by
  unfold renderWhere
  split
  · next hb =>
    rw [h.eq_nil_of_sql_eq_empty (isEmpty_iff.1 hb)]
    exact .nil
  · exact .text (by decide) h

theorem unionKeyword_calm (all : Bool) : isCalm (unionKeyword all ++ "(") = true := by
  cases all <;> decide

theorem isInert_unionKeyword (all : Bool) : Text.IsOver isInert (unionKeyword all ++ "(") := by
  cases all <;> decide

namespace UnionItem

theorem isCalm_render (r : Renderer) (u : UnionItem) : isCalm (u.render r).sql = true := by
  have hne : ∀ all, unionKeyword all ++ "(" ≠ "" := fun all => by cases all <;> decide
  cases u with
  | raw sql all =>
    simp only [UnionItem.render, ofText, sql_cons, sql_nil, Piece.sql, String.append_empty]
    rw [String.append_assoc]
    exact isCalm_append_of_ne_empty (unionKeyword_calm all) (hne all) _
  | query query all =>
    simp only [UnionItem.render, Fragment.within, sql_cons, Piece.sql]
    exact isCalm_append_of_ne_empty (unionKeyword_calm all) (hne all) _

theorem isCalm_renderAll (r : Renderer) (us : List UnionItem) :
    isCalm (UnionItem.renderAll r us).sql = true := by
  induction us with
  | nil => rfl
  | cons u us ih =>
    rw [UnionItem.renderAll, sql_append]
    exact isCalm_append (isCalm_render r u) ih

theorem writes_renderAll {r : Renderer} {us : List UnionItem}
    (h : ∀ u ∈ us, Writes (Leaf.bound u.leaves) (u.render r)) :
    Writes (Leaf.bound (UnionItem.leavesEach us)) (UnionItem.renderAll r us) := by
  induction us with
  | nil => exact .nil
  | cons u us ih =>
    rw [UnionItem.leavesEach, Leaf.bound_append, UnionItem.renderAll]
    exact (h u List.mem_cons_self).append (ih fun v hv => h v (List.mem_cons_of_mem _ hv))
      (isCalm_renderAll r us)

end UnionItem

namespace Document

/-- A document is flat clauses around its conditions and its unions. -/
theorem render_eq (r : Renderer) (d : Document) :
    d.render r =
      ["SELECT", d.clauseText r .distinct, " ", d.clauseText r .fields, " FROM ",
        d.clauseText r .tables, d.clauseText r .forced, d.clauseText r .joins].map .text ++
      (d.renderClause r .filter ++
        ([d.clauseText r .group, d.clauseText r .having].map .text ++
          (d.renderClause r .unions ++
            ([d.clauseText r .order, d.clauseText r .limit, d.clauseText r .lock,
              d.clauseText r .comment].map .text ++ [])))) := by
  rw [render_eq_fill]
  rfl

/-- A document whose texts are inert writes its leaves if its conditions and its unions do. -/
theorem writes_of_clauses {r : Renderer} (hr : r.IsInert) {d : Document}
    (ht : ∀ t ∈ d.clauseTexts, Text.IsOver isInert t) {ls ms : List Leaf}
    (hfilter : Writes ls (d.renderClause r .filter))
    (hunions : Writes ms (d.renderClause r .unions)) : Writes (ls ++ ms) (d.render r) := by
  have hclause := isInert_clauseText hr ht
  have hcalm : ∀ slot ∈ [Slot.group, .having, .order, .limit, .lock, .comment],
      isCalm (d.clauseText r slot) = true := fun _ hslot => isCalm_clauseText d r hslot
  have htail : Writes [] ([d.clauseText r .order, d.clauseText r .limit, d.clauseText r .lock,
      d.clauseText r .comment].map .text ++ []) :=
    Writes.nil.texts_append (by simp [hclause])
  -- the clauses are put together from the last to the first
  have hunionsTail := hunions.append htail (isCalm_texts_append (by simp [hcalm]) rfl)
  have hgroup : ∀ t ∈ [d.clauseText r .group, d.clauseText r .having], Text.IsOver isInert t := by
    simp [hclause]
  have hmiddle := hunionsTail.texts_append hgroup
  have hall := hfilter.append hmiddle (isCalm_texts_append (by simp [hcalm]) ?_)
  · rw [List.append_nil] at hall
    rw [render_eq]
    refine hall.texts_append ?_
    simp only [List.mem_cons, List.not_mem_nil, or_false, forall_eq_or_imp, forall_eq, hclause,
      true_and, and_true]
    decide
  · rw [sql_append]
    exact isCalm_append (UnionItem.isCalm_renderAll r d.unions)
      (isCalm_texts_append (by simp [hcalm]) rfl)

end Document

/-- A scope whose names are inert, of a renderer that adds nothing but inert text. -/
structure Scope.IsInert (s : Scope) : Prop where
  names : s.IsOver isInert
  renderer : s.renderer.IsInert

/-- The conditions on a field text write their leaves for each field that it stands for. -/
theorem writes_onField {s : Scope} (hs : s.IsInert) {field : String} {ls : List Leaf}
    {conditions : String → List Fragment}
    (ht : Leaf.AreInert (.text field :: ((Name.fields field).map fun _ => ls).flatten))
    (h : Leaf.AreInert ls → ∀ key, Text.IsOver isInert key →
      WritesEach (Leaf.bound ls) (conditions key)) :
    Writes (Leaf.bound (.text field :: ((Name.fields field).map fun _ => ls).flatten))
      (renderField s field conditions) := by
  rw [← List.flatMap_def] at ht ⊢
  rw [Leaf.bound_cons_text, Leaf.bound_flatMap]
  refine writes_renderField hs.names (ht field List.mem_cons_self) fun n hn key hk => h ?_ key hk
  exact ht.mono fun l hl => List.mem_cons_of_mem _ (List.mem_flatMap.2 ⟨n, hn, hl⟩)

/-- A soft delete is one more condition on a field. -/
theorem writes_softDelete {s : Scope} (hs : s.IsInert) {soft : SoftDelete}
    (ht : Leaf.AreInert soft.leaves)
    (h : ∀ key, Text.IsOver isInert key → Leaf.AreInert soft.condition.leaves →
      Writes (Leaf.bound soft.condition.leaves) (soft.condition.render s key)) :
    Writes (Leaf.bound soft.leaves) (soft.render s) := by
  obtain ⟨field, condition⟩ := soft
  rw [SoftDelete.leaves] at ht ⊢
  rw [SoftDelete.render]
  exact writes_onField hs ht fun hcond key hk => .singleton (h key hk hcond)

/-- Branches that each write their leaves. -/
theorem Branch.writes_renderAll {s : Scope} {bs : List Branch}
    (h : ∀ b ∈ bs, Writes (Leaf.bound b.leaves) (b.render s).render) :
    Writes (Leaf.bound (Branch.leavesEach bs)) (Junction.renderAll (Branch.renderEach s bs)) := by
  rw [Branch.leavesEach_eq_flatMap, Leaf.bound_flatMap, Branch.renderEach_eq_map]
  refine Junction.writes_renderAll ?_
  rw [List.map_map]
  exact WritesEach.map bs h

/-- The WHERE clause writes the leaves of the conditions, and then those of the soft delete. -/
theorem Document.writes_where {r : Renderer} {d : Document}
    (hfilter : Writes (Leaf.bound (Branch.leavesEach d.filter)) (d.renderFilter r))
    (hsoft : ∀ soft ∈ d.softDelete, Writes (Leaf.bound soft.leaves) (soft.render (d.scope r))) :
    Writes (Leaf.bound (Branch.leavesEach d.filter) ++
      Leaf.bound (SoftDelete.leavesOption d.softDelete)) (d.renderClause r .filter) := by
  refine writes_renderWhere ?_
  cases hx : d.softDelete with
  | none =>
    rw [SoftDelete.leavesOption, Leaf.bound_nil, List.append_nil]
    exact hfilter
  | some soft => exact writes_renderBesides hfilter (hsoft soft hx)

/-- Each kind of node writes its leaves if the texts among them are inert. -/
theorem writes_induction : DocumentInduction
    (fun c => ∀ s : Scope, s.IsInert → ∀ key, Text.IsOver isInert key → Leaf.AreInert c.leaves →
      Writes (Leaf.bound c.leaves) (c.render s key))
    (fun e => ∀ s : Scope, s.IsInert → Leaf.AreInert e.leaves →
      Writes (Leaf.bound e.leaves) (e.render s))
    (fun b => ∀ s : Scope, s.IsInert → Leaf.AreInert b.leaves →
      Writes (Leaf.bound b.leaves) (b.render s).render)
    (fun u => ∀ r : Renderer, r.IsInert → Leaf.AreInert u.leaves →
      Writes (Leaf.bound u.leaves) (u.render r))
    (fun d => ∀ r : Renderer, r.IsInert → Leaf.AreInert d.leaves →
      Writes (Leaf.bound d.leaves) (d.render r)) where
  compare op v s _ key hk _ := op.writes_render hk v
  compareRaw op sql s _ key hk _ := by
    simp only [Condition.render, ofText]
    refine Writes.operand sql ?_ ?_
    · simp only [Text.isOver_append]
      exact ⟨⟨⟨hk, by decide⟩, op.isInert_sql⟩, by decide⟩
    · intro h
      exact absurd (String.append_eq_empty_iff.1 h).2 (by decide)
  isNull s _ key hk _ := .ofText (Text.isOver_append.2 ⟨hk, by decide⟩)
  isNotNull s _ key hk _ := .ofText (Text.isOver_append.2 ⟨hk, by decide⟩)
  inList vs negated s _ key hk _ := by
    rw [Condition.leaves, bound_map_value]
    exact writes_renderMembers hk vs negated
  between low high negated s _ key hk _ := writes_between hk low high negated
  exp sql binds s _ key hk _ := by
    refine Writes.rawWithin sql binds ?_ fun h => ?_
    · simp only [Text.isOver_append]
      exact ⟨⟨by decide, hk⟩, by decide⟩
    · exact absurd (String.append_eq_empty_iff.1 h).2 (by decide)
  inQuery query negated hquery s hs key hk ht :=
    (hquery s.renderer hs.renderer ht).within (isInert_negated hk negated (by decide)) (by decide)
      (by decide)
  field name cs hcs s hs ht := by
    rw [Entry.leaves] at ht ⊢
    rw [Entry.render]
    refine writes_onField hs ht fun hcond key hk => ?_
    rw [Condition.leavesEach_eq_flatMap] at hcond ⊢
    rw [Condition.renderEach_eq_map, Leaf.bound_flatMap]
    exact WritesEach.map cs fun c hc => hcs c hc s hs key hk (hcond.of_mem hc)
  raw sql binds s _ _ := Writes.rawWithin sql binds (by decide) (by decide)
  group bs hbs s hs ht := by
    rw [Entry.leaves, Branch.leavesEach_eq_flatMap] at ht
    have hall := Branch.writes_renderAll fun b hb => hbs b hb s hs (ht.of_mem hb)
    exact hall.enclosedIfAny
  exist query negated hquery s hs ht := by
    refine (hquery s.renderer hs.renderer ht).within ?_ (by decide) (by decide)
    exact Text.isOver_append.2 ⟨isInert_negation _, by decide⟩
  branch k es hes s hs ht := by
    rw [Branch.leaves, Entry.leavesEach_eq_flatMap] at *
    rw [Branch.render, Entry.renderEach_eq_map, Leaf.bound_flatMap]
    -- a member without text is left out, and then it has no leaves either
    exact Junction.writes_render
      (WritesEach.map es fun e he => hes e he s hs (ht.of_mem he)).visible
  unionRaw sql all r hr ht := by
    have hsql : Text.IsOver isInert (TableName.expand r.tablePrefix sql) :=
      TableName.isOver_expand (fun _ h => isInert_toLower h) hr.tablePrefix
        (ht sql List.mem_cons_self)
    refine .ofText ?_
    rw [Text.isOver_append, Text.isOver_append]
    exact ⟨⟨isInert_unionKeyword all, hsql⟩, by decide⟩
  unionQuery query all hquery r hr ht :=
    (hquery r hr ht).within (isInert_unionKeyword all) (by decide) (by decide)
  document d hfilter hsoft hunions r hr ht := by
    rw [Document.leaves_eq, Leaf.areInert_append, Leaf.areInert_append, Leaf.areInert_append,
      Leaf.areInert_map_text] at ht
    obtain ⟨⟨⟨htexts, htfilter⟩, htsoft⟩, htunions⟩ := ht
    have hs : (d.scope r).IsInert := ⟨Document.isInert_scope hr htexts, hr⟩
    rw [Branch.leavesEach_eq_flatMap] at htfilter
    rw [UnionItem.leavesEach_eq_flatMap] at htunions
    have hbody : Writes (Leaf.bound (Branch.leavesEach d.filter)) (d.renderFilter r) :=
      Branch.writes_renderAll fun b hb => hfilter b hb _ hs (htfilter.of_mem hb)
    have hwhere := Document.writes_where hbody fun soft hx => by
      rw [Option.mem_def.1 hx, SoftDelete.leavesOption] at htsoft
      exact writes_softDelete hs htsoft (hsoft soft hx _ hs)
    have hunion : Writes (Leaf.bound (UnionItem.leavesEach d.unions)) (d.renderClause r .unions) :=
      UnionItem.writes_renderAll fun u hu => hunions u hu r hr (htunions.of_mem hu)
    rw [Document.leaves_eq, Leaf.bound_append, Leaf.bound_append, Leaf.bound_append,
      Leaf.bound_map_text, List.nil_append]
    exact Document.writes_of_clauses hr htexts hwhere hunion

namespace Document

variable {r : Renderer} {d : Document}

/-- A document whose texts are inert writes its leaves, in order. -/
theorem writes_render (hr : r.IsInert) (h : Leaf.AreInert d.leaves) :
    Writes (Leaf.bound d.leaves) (d.render r) :=
  writes_induction.ofDocument d r hr h

/-- The parameters of a document are those of its leaves. -/
theorem params_render (hr : r.IsInert) (h : Leaf.AreInert d.leaves) :
    (d.render r).params = d.leaves.flatMap Leaf.params := by
  have hbound : ∀ ls : List Leaf, (Leaf.bound ls).flatMap Leaf.params = ls.flatMap Leaf.params := by
    intro ls
    induction ls with
    | nil => rfl
    | cons l ls ih => cases l <;> simpa [Leaf.bound, Leaf.isText, Leaf.params] using ih
  rw [(writes_render hr h).params_eq, hbound]

end Document

end SqlSelect
