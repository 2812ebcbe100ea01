import SqlSelect.Proofs.Document.Congruence
import SqlSelect.Proofs.Document.Leaves

/-!
# Values do not get into the text

Two documents are rendered side by side. They say the same but for the values that they bind, and
a relation `R` holds between each value of the one and the value in its place in the other.

* `Document.Alike R d e`: the documents differ in nothing but such values. Lists keep their length,
  and where null is tested for, null stays null and other values stay other values;
* `Fragment.Alike R f g`: the fragments have the same pieces but for such values. To be alike is a
  congruence of pieces;
* `Renderer.select_of_alike`: the two statements have the same text, and their parameters stand in
  the relation, one by one.

The relation is any whatever. One that says nothing leaves the equality of the texts; one that only
holds between the values of one place in the documents tells which parameter comes from where.
-/

namespace SqlSelect

/-! ### Documents that differ in their values -/

/-- Does a comparison by the operator with null become a test for null? -/
def Comparison.testsNull (op : Comparison) : Bool := op = .eq || op = .neq

/-- The document without its conditions and its unions. -/
def Document.flat (d : Document) : Document :=
  { d with filter := [], unions := [], softDelete := none }

section Relations

variable (R : Value → Value → Prop)

/-- Parameters of one name with corresponding values. A parameter may be sent as another type if
its value is another. -/
structure Param.Alike (p q : Param) : Prop where
  name : p.name = q.name
  value : R p.value q.value

mutual

/-- Conditions that differ in their values. -/
inductive Condition.Alike : Condition → Condition → Prop
  | compare {v w : Value} (op : Comparison) :
    R v w → (op.testsNull = true → v.isNull = w.isNull) →
    Condition.Alike (.compare op v) (.compare op w)
  | compareRaw (op : Comparison) (sql : String) :
    Condition.Alike (.compareRaw op sql) (.compareRaw op sql)
  | isNull : Condition.Alike .isNull .isNull
  | isNotNull : Condition.Alike .isNotNull .isNotNull
  | inList {vs ws : List Value} (negated : Bool) :
    List.Forall₂ R vs ws → Condition.Alike (.inList vs negated) (.inList ws negated)
  | between {low high low' high' : Value} (negated : Bool) :
    R low low' → R high high' →
    Condition.Alike (.between low high negated) (.between low' high' negated)
  | exp {ps qs : List Param} (sql : String) :
    List.Forall₂ (Param.Alike R) ps qs → Condition.Alike (.exp sql ps) (.exp sql qs)
  | inQuery {d e : Document} (negated : Bool) :
    Document.Alike d e → Condition.Alike (.inQuery d negated) (.inQuery e negated)

/-- Members of a WHERE clause that differ in their values. -/
inductive Entry.Alike : Entry → Entry → Prop
  | field {cs ds : List Condition} (name : String) :
    List.Forall₂ Condition.Alike cs ds → Entry.Alike (.field name cs) (.field name ds)
  | raw {ps qs : List Param} (sql : String) :
    List.Forall₂ (Param.Alike R) ps qs → Entry.Alike (.raw sql ps) (.raw sql qs)
  | group {bs cs : List Branch} :
    List.Forall₂ Branch.Alike bs cs → Entry.Alike (.group bs) (.group cs)
  | exist {d e : Document} (negated : Bool) :
    Document.Alike d e → Entry.Alike (.exist d negated) (.exist e negated)

/-- Branches that differ in their values. -/
inductive Branch.Alike : Branch → Branch → Prop
  | mk {es fs : List Entry} (k : Connective) :
    List.Forall₂ Entry.Alike es fs → Branch.Alike ⟨k, es⟩ ⟨k, fs⟩

/-- United statements that differ in their values. -/
inductive UnionItem.Alike : UnionItem → UnionItem → Prop
  | raw (sql : String) (all : Bool) : UnionItem.Alike (.raw sql all) (.raw sql all)
  | query {d e : Document} (all : Bool) :
    Document.Alike d e → UnionItem.Alike (.query d all) (.query e all)

/-- Soft deletes that differ in their values. -/
inductive SoftDelete.Alike : SoftDelete → SoftDelete → Prop
  | mk {c d : Condition} (field : String) :
    Condition.Alike c d → SoftDelete.Alike ⟨field, c⟩ ⟨field, d⟩

/-- Documents that differ in their values. -/
inductive Document.Alike : Document → Document → Prop
  | mk {d e : Document} : d.flat = e.flat → List.Forall₂ Branch.Alike d.filter e.filter →
    Option.Rel SoftDelete.Alike d.softDelete e.softDelete →
    List.Forall₂ UnionItem.Alike d.unions e.unions → Document.Alike d e

end

/-! ### Fragments -/

/-- Pieces that differ in their values. -/
inductive Piece.Alike : Piece → Piece → Prop
  | text (s : String) : Piece.Alike (.text s) (.text s)
  | mark {v w : Value} : R v w → Piece.Alike (.mark v) (.mark w)
  | raw {ps qs : List Param} (sql : String) :
    List.Forall₂ (Param.Alike R) ps qs → Piece.Alike (.raw sql ps) (.raw sql qs)

/-- Fragments that differ in their values. -/
def Fragment.Alike (f g : Fragment) : Prop := List.Forall₂ (Piece.Alike R) f g

/-- Junctions that differ in their values. -/
structure Junction.Alike (i j : Junction) : Prop where
  connective : i.connective = j.connective
  parts : List.Forall₂ (Fragment.Alike R) i.parts j.parts

end Relations

variable {R : Value → Value → Prop}

/-- The parameters of corresponding pieces correspond. -/
theorem Piece.Alike.params_alike {p q : Piece} (h : Piece.Alike R p q) :
    List.Forall₂ (Param.Alike R) p.params q.params := by
  cases h with
  | text s => exact .nil
  | mark hv => exact .cons ⟨rfl, hv⟩ .nil
  | raw sql hps => exact hps

instance : Piece.IsCongruence (Piece.Alike R) where
  text s := .text s
  sql_eq_empty_iff h := by cases h <;> rfl

namespace Fragment

variable {f g : Fragment}

/-- Values do not count for the text. -/
theorem Alike.sql_eq (h : Alike R f g) : f.sql = g.sql := by
  induction h with
  | nil => rfl
  | cons hp _ ih =>
    rw [sql_cons, sql_cons, ih]
    cases hp <;> rfl

theorem Alike.params_alike (h : Alike R f g) :
    List.Forall₂ (Param.Alike R) f.params g.params :=
  List.rel_flatMap h fun _ _ hp => hp.params_alike

theorem alike_marks {vs ws : List Value} (h : List.Forall₂ R vs ws) :
    Alike R (marks vs) (marks ws) :=
  related_join "," (List.rel_map (fun _ _ hv => .cons (.mark hv) .nil) h)

end Fragment

/-- Junctions that are alike, as one condition. -/
theorem Junction.alike_renderAll {is js : List Junction} (h : List.Forall₂ (Alike R) is js) :
    Fragment.Alike R (renderAll is) (renderAll js) :=
  related_renderAll (h.imp fun _ _ hij => ⟨hij.connective, hij.parts⟩)

/-! ### Rendering -/

open Fragment

variable {r : Renderer}

/-- A comparison that is no test for null has a mark. -/
theorem Comparison.render_eq_mark (key : String) {op : Comparison} {v : Value}
    (h : ¬(op.testsNull = true ∧ v = .null)) :
    op.render key v = [.text (key ++ " " ++ op.sql ++ " "), .mark v] := by
  cases op <;> cases v <;> simp_all [testsNull, render]

/-- A comparison with another value, null or not as the one before. -/
theorem Comparison.alike_render (key : String) {op : Comparison} {v w : Value} (hv : R v w)
    (hnull : op.testsNull = true → v.isNull = w.isNull) :
    Fragment.Alike R (op.render key v) (op.render key w) := by
  have hiff : op.testsNull = true → (v = .null ↔ w = .null) := fun htests => by
    rw [← Value.isNull_iff, ← Value.isNull_iff, hnull htests]
  by_cases h : op.testsNull = true ∧ v = .null
  · -- both are the same test, and it has no mark
    obtain rfl := h.2
    obtain rfl := (hiff h.1).1 rfl
    cases op with
    | eq => exact related_ofText _
    | neq => exact related_ofText _
    | _ => exact absurd h.1 (by decide)
  · have hw : ¬(op.testsNull = true ∧ w = .null) := fun hw => h ⟨hw.1, (hiff hw.1).2 hw.2⟩
    rw [render_eq_mark key h, render_eq_mark key hw]
    exact .cons (.text _) (.cons (.mark hv) .nil)

theorem alike_renderMembers (key : String) (negated : Bool) {vs ws : List Value}
    (h : List.Forall₂ R vs ws) :
    Fragment.Alike R (renderMembers key vs negated) (renderMembers key ws negated) := by
  unfold renderMembers
  rw [isEmpty_eq_of_forall₂ h]
  split
  · exact related_ofText _
  · exact Related.within (alike_marks h) _ _

/-- The flat clauses are the same. -/
theorem Document.clauseText_flat (d : Document) (r : Renderer) (slot : Slot) :
    d.flat.clauseText r slot = d.clauseText r slot := by
  cases slot <;> rfl

/-- Lists of nodes of which each, rendered beside a node that is alike, gives an alike result. -/
theorem alike_map {α β : Type} {P : α → α → Prop} {Q : β → β → Prop} {f g : α → β} {as bs : List α}
    (h : List.Forall₂ P as bs) (hf : ∀ a ∈ as, ∀ b, P a b → Q (f a) (g b)) :
    List.Forall₂ Q (as.map f) (bs.map g) := by
  induction h with
  | nil => exact .nil
  | cons hab _ ih =>
    obtain ⟨ha, has⟩ := List.forall_mem_cons.1 hf
    exact .cons (ha _ hab) (ih has)

/-- The same of a node that may be absent. -/
theorem alike_option {α β : Type} {P : α → α → Prop} {Q : β → β → Prop} {f g : α → β}
    {x y : Option α} (h : Option.Rel P x y) (hf : ∀ a ∈ x, ∀ b, P a b → Q (f a) (g b)) :
    Option.Rel Q (x.map f) (y.map g) := by
  cases h with
  | none => exact .none
  | some hab => exact .some (hf _ rfl _ hab)

/-- A document around conditions and unions that are alike. -/
theorem Document.alike_render_of_clauses {d e : Document} (hflat : d.flat = e.flat)
    (hfilter : Fragment.Alike R (d.renderClause r .filter) (e.renderClause r .filter))
    (hunions : Fragment.Alike R (d.renderClause r .unions) (e.renderClause r .unions)) :
    Fragment.Alike R (d.render r) (e.render r) := by
  have hslot : ∀ slot, Fragment.Alike R (d.renderClause r slot) (e.renderClause r slot) := by
    intro slot
    have htext : d.clauseText r slot = e.clauseText r slot := by
      rw [← d.clauseText_flat, ← e.clauseText_flat, hflat]
    cases slot with
    | filter => exact hfilter
    | unions => exact hunions
    | _ =>
      simp only [renderClause, htext]
      exact related_ofText _
  rw [render_eq_fill, render_eq_fill]
  exact Layout.related_fill _ fun slot _ => hslot slot

/-- Each kind of node is rendered to fragments that are alike. -/
theorem alike_induction (R : Value → Value → Prop) : DocumentInduction
    (fun c => ∀ c', Condition.Alike R c c' → ∀ s key,
      Fragment.Alike R (c.render s key) (c'.render s key))
    (fun e => ∀ e', Entry.Alike R e e' → ∀ s, Fragment.Alike R (e.render s) (e'.render s))
    (fun b => ∀ b', Branch.Alike R b b' → ∀ s, Junction.Alike R (b.render s) (b'.render s))
    (fun u => ∀ u', UnionItem.Alike R u u' → ∀ r, Fragment.Alike R (u.render r) (u'.render r))
    (fun d => ∀ d', Document.Alike R d d' → ∀ r, Fragment.Alike R (d.render r) (d'.render r)) where
  compare op v := by
    rintro _ ⟨⟩ s key
    next hv hnull => exact Comparison.alike_render key hv hnull
  compareRaw op sql := by
    rintro _ ⟨⟩ s key
    exact related_ofText _
  isNull := by
    rintro _ ⟨⟩ s key
    exact related_ofText _
  isNotNull := by
    rintro _ ⟨⟩ s key
    exact related_ofText _
  inList vs negated := by
    rintro _ ⟨⟩ s key
    next h => exact alike_renderMembers key negated h
  between low high negated := by
    rintro _ ⟨⟩ s key
    next hlow hhigh =>
      exact .cons (.text _) (.cons (.mark hlow) (.cons (.text _) (.cons (.mark hhigh) .nil)))
  exp sql binds := by
    rintro _ ⟨⟩ s key
    next h =>
      have hraw : Fragment.Alike R [.raw sql binds] [.raw sql _] := .cons (.raw sql h) .nil
      exact Related.within hraw _ _
  inQuery query negated ih := by
    rintro _ ⟨⟩ s key
    next h => exact Related.within (ih _ h s.renderer) _ _
  field name cs ih := by
    rintro _ ⟨⟩ s
    next h =>
      rw [Entry.render, Entry.render]
      refine related_renderField name fun key => ?_
      rw [Condition.renderEach_eq_map, Condition.renderEach_eq_map]
      exact alike_map h fun c hc c' hcc => ih c hc c' hcc s key
  raw sql binds := by
    rintro _ ⟨⟩ s
    next h =>
      have hraw : Fragment.Alike R [.raw sql binds] [.raw sql _] := .cons (.raw sql h) .nil
      exact Related.enclosed hraw
  group bs ih := by
    rintro _ ⟨⟩ s
    next h =>
      refine Related.enclosedIfAny (Junction.alike_renderAll ?_)
      rw [Branch.renderEach_eq_map, Branch.renderEach_eq_map]
      exact alike_map h fun b hb b' hbb => ih b hb b' hbb s
  exist query negated ih := by
    rintro _ ⟨⟩ s
    next h => exact Related.within (ih _ h s.renderer) _ _
  branch k es ih := by
    rintro _ ⟨⟩ s
    next h =>
      refine ⟨rfl, related_visible ?_⟩
      rw [Entry.renderEach_eq_map, Entry.renderEach_eq_map]
      exact alike_map h fun e he e' hee => ih e he e' hee s
  unionRaw sql all := by
    rintro _ ⟨⟩ r
    exact related_ofText _
  unionQuery query all ih := by
    rintro _ ⟨⟩ r
    next h => exact Related.within (ih _ h r) _ _
  document d ihfilter ihsoft ihunions := by
    rintro e ⟨hflat, hfilter, hsoft, hunions⟩ r
    -- the aliases are part of the flat clauses, so that both write their names in one way
    have hscope : e.scope r = d.scope r := by
      have haliases : d.flat.aliases = e.flat.aliases := congrArg Document.aliases hflat
      exact congrArg (Scope.mk r) haliases.symm
    refine Document.alike_render_of_clauses hflat
      (related_renderWhere (related_renderBesides ?_ ?_)) ?_
    · refine Junction.alike_renderAll ?_
      rw [hscope, Branch.renderEach_eq_map, Branch.renderEach_eq_map]
      exact alike_map hfilter fun b hb b' hbb => ihfilter b hb b' hbb _
    · rw [hscope]
      refine alike_option hsoft fun soft hd soft' hss => ?_
      obtain ⟨field, hc⟩ := hss
      exact related_renderField field fun key => .cons (ihsoft _ hd _ hc _ key) .nil
    · show Fragment.Alike R (UnionItem.renderAll r d.unions) (UnionItem.renderAll r e.unions)
      rw [UnionItem.renderAll_eq_flatMap, UnionItem.renderAll_eq_flatMap]
      exact List.rel_flatten (alike_map hunions fun u hu u' huu => ihunions u hu u' huu r)

/-- Values do not get into the text. Two documents that differ in nothing but values are rendered
to the same text in every dialect, and their parameters have the same names and the values that
correspond, in the same order. -/
theorem Renderer.select_of_alike (r : Renderer) {d e : Document} (h : d.Alike R e) :
    (r.select d).sql = (r.select e).sql ∧
      (r.select d).params.map Param.name = (r.select e).params.map Param.name ∧
      List.Forall₂ (fun p q => R p.value q.value) (r.select d).params (r.select e).params := by
  have hrender := (alike_induction R).ofDocument d e h r
  have hparams := hrender.params_alike
  simp only [Renderer.select, Statement.sql_ofFragment, Statement.params_ofFragment]
  refine ⟨hrender.sql_eq, ?_, hparams.imp fun _ _ hp => hp.value⟩
  rw [← List.forall₂_eq_eq_eq, List.forall₂_map_left_iff, List.forall₂_map_right_iff]
  exact hparams.imp fun _ _ hp => hp.name

/-- A statement on one table with one entry. -/
def Document.single (table : String) (e : Entry) : Document :=
  { tables := [table], filter := [⟨.and, [e]⟩] }

theorem Document.alike_single (table : String) {e f : Entry} (h : e.Alike R f) :
    (single table e).Alike R (single table f) :=
  .mk rfl (.cons (.mk .and (.cons h .nil)) .nil) .none .nil

/-- A document with values in conditions, in a subquery, in a union and in a soft delete. -/
def Document.filledSample (a b c : Value) : Document :=
  { single "t" (.field "x|y" [.compare .eq a,
      .inQuery (single "u" (.field "n" [.inList [b, a] false])) true]) with
    unions := [.query (single "v" (.raw "z = :n" [.named "n" c])) false]
    softDelete := some ⟨"e", .between b c true⟩ }

/-- Numbers in the document above, and in their places texts that look like SQL, and null. -/
theorem Renderer.select_filledSample :
    let r : Renderer := ⟨.mysql, "p_"⟩
    let R : Value → Value → Prop := fun v w =>
      (v, w) ∈ [(.int 1, .text "' OR '?"), (.int 2, .text "__T__"), (.int 3, .null)]
    let d := Document.filledSample (.int 1) (.int 2) (.int 3)
    let e := Document.filledSample (.text "' OR '?") (.text "__T__") .null
    d.Alike R e ∧ (r.select d).sql = (r.select e).sql ∧
      (r.select d).params.map Param.name = (r.select e).params.map Param.name ∧
      List.Forall₂ (fun p q => R p.value q.value) (r.select d).params (r.select e).params := by
  intro r R d e
  have ha : R (.int 1) (.text "' OR '?") := by simp [R]
  have hb : R (.int 2) (.text "__T__") := by simp [R]
  have hc : R (.int 3) .null := by simp [R]
  have hinner : Entry.Alike R (.field "n" [.inList [.int 2, .int 1] false])
      (.field "n" [.inList [.text "__T__", .text "' OR '?"] false]) :=
    .field "n" (.cons (.inList false (.cons hb (.cons ha .nil))) .nil)
  have hquery := Condition.Alike.inQuery true (Document.alike_single "u" hinner)
  have hraw : Entry.Alike R (.raw "z = :n" [.named "n" (.int 3)])
      (.raw "z = :n" [.named "n" .null]) := .raw _ (.cons ⟨rfl, hc⟩ .nil)
  have hconditions := List.Forall₂.cons
    (Condition.Alike.compare .eq ha fun _ => rfl) (.cons hquery .nil)
  have h : d.Alike R e := .mk rfl (.cons (.mk .and (.cons (.field "x|y" hconditions) .nil)) .nil)
    (.some (.mk "e" (.between true hb hc)))
    (.cons (.query false (Document.alike_single "v" hraw)) .nil)
  exact ⟨h, r.select_of_alike h⟩

end SqlSelect
