import Mathlib.Data.List.Forall2
import SqlSelect.Render

/-!
# Renderings side by side

Two fragments are compared piece by piece, by a relation that holds between a text and itself and
only between pieces that are empty together. Whatever is made of such fragments in the same way
compares in the same way.

* `Piece.IsCongruence P`: what is asked of the relation;
* `Fragment.Related P f g`: the pieces of the fragments correspond, one by one;
* `Junction.related_renderAll`, `related_renderField`, `related_renderBesides`,
  `related_renderWhere`, `Layout.related_fill`: the ways in which a statement is put together.
-/

namespace SqlSelect

/-- The relation holds between a text and itself, and a piece without text is related to such
pieces only. -/
class Piece.IsCongruence (P : Piece → Piece → Prop) : Prop where
  text : ∀ s, P (.text s) (.text s)
  sql_eq_empty_iff : ∀ {p q}, P p q → (p.sql = "" ↔ q.sql = "")

/-- The pieces of the fragments correspond, one by one. -/
def Fragment.Related (P : Piece → Piece → Prop) (f g : Fragment) : Prop := List.Forall₂ P f g

/-- Junctions with one connective whose parts correspond. -/
structure Junction.Related (P : Piece → Piece → Prop) (i j : Junction) : Prop where
  connective : i.connective = j.connective
  parts : List.Forall₂ (Fragment.Related P) i.parts j.parts

/-- Lists that correspond member by member are empty together. -/
theorem isEmpty_eq_of_forall₂ {α β : Type} {R : α → β → Prop} {as : List α} {bs : List β}
    (h : List.Forall₂ R as bs) : as.isEmpty = bs.isEmpty := by
  cases h <;> rfl

/-- Lists that are made of one, member by member. -/
theorem forall₂_map_of_mem {α β : Type} {R : β → β → Prop} {p q : α → β} {as : List α}
    (h : ∀ a ∈ as, R (p a) (q a)) : List.Forall₂ R (as.map p) (as.map q) := by
  rw [List.forall₂_map_left_iff, List.forall₂_map_right_iff]
  exact List.forall₂_same.2 h

variable {P : Piece → Piece → Prop} [Piece.IsCongruence P]

/-! ### Fragments -/

namespace Fragment

variable {f g f' g' : Fragment} {fs gs : List Fragment}

/-- A fragment is empty for its text, piece by piece. -/
theorem Related.isEmpty_eq (h : Related P f g) : f.isEmpty = g.isEmpty := by
  rw [Bool.eq_iff_iff, isEmpty_iff, isEmpty_iff]
  induction h with
  | nil => rfl
  | cons hp _ ih =>
    rw [sql_cons, sql_cons, String.append_eq_empty_iff, String.append_eq_empty_iff,
      Piece.IsCongruence.sql_eq_empty_iff hp, ih]

omit [Piece.IsCongruence P] in
theorem Related.append (h : Related P f g) (h' : Related P f' g') :
    Related P (f ++ f') (g ++ g') :=
  List.rel_append h h'

theorem related_ofText (s : String) : Related P (ofText s) (ofText s) :=
  .cons (Piece.IsCongruence.text s) .nil

theorem Related.text (h : Related P f g) (s : String) : Related P (.text s :: f) (.text s :: g) :=
  .cons (Piece.IsCongruence.text s) h

theorem Related.within (h : Related P f g) (before after : String) :
    Related P (within before after f) (within before after g) :=
  (h.append (related_ofText after)).text before

theorem Related.enclosed (h : Related P f g) : Related P f.enclosed g.enclosed :=
  h.within "(" ")"

theorem Related.enclosedIfAny (h : Related P f g) : Related P f.enclosedIfAny g.enclosedIfAny := by
  unfold Fragment.enclosedIfAny
  rw [h.isEmpty_eq]
  split
  · exact .nil
  · exact h.enclosed

/-- The same fragments of two lists have no text. -/
theorem related_visible (h : List.Forall₂ (Related P) fs gs) :
    List.Forall₂ (Related P) (visible fs) (visible gs) := by
  refine List.rel_filter (fun f g hfg => ?_) h
  simp only [hfg.isEmpty_eq]

theorem related_join (sep : String) (h : List.Forall₂ (Related P) fs gs) :
    Related P (join sep fs) (join sep gs) := by
  induction h with
  | nil => exact .nil
  | cons hf htail ih =>
    cases htail with
    | nil => exact hf
    | cons hg hgs => exact hf.append (ih.text sep)

theorem related_conjoined (h : List.Forall₂ (Related P) fs gs) :
    Related P (conjoined fs) (conjoined gs) := by
  cases h with
  | nil => exact .nil
  | cons hf htail =>
    cases htail with
    | nil => exact hf
    | cons hg hgs => exact (related_join " AND " (.cons hf (.cons hg hgs))).enclosed

end Fragment

/-! ### Junctions -/

namespace Junction

open Fragment

variable {i j : Junction} {is js : List Junction}

theorem Related.render (h : i.Related P j) : Fragment.Related P i.render j.render := by
  unfold Junction.render
  rw [h.connective]
  exact related_join _ h.parts

theorem related_renderRest (h : List.Forall₂ (Related P) is js) :
    Fragment.Related P (renderRest is) (renderRest js) := by
  induction h with
  | nil => exact .nil
  | cons hj _ ih =>
    rw [renderRest, renderRest, hj.connective]
    exact (hj.render.enclosed.append ih).text _

theorem related_renderNonempty (h : List.Forall₂ (Related P) is js) :
    Fragment.Related P (renderNonempty is) (renderNonempty js) := by
  cases h with
  | nil => exact .nil
  | cons hj htail =>
    cases htail with
    | nil => exact hj.render
    | cons hi htail =>
      exact hj.render.enclosed.append (related_renderRest (.cons hi htail))

theorem related_renderAll (h : List.Forall₂ (Related P) is js) :
    Fragment.Related P (renderAll is) (renderAll js) := by
  refine related_renderNonempty (List.rel_filter (fun i j hij => ?_) h)
  simp only [isEmpty_eq_of_forall₂ hij.parts]

end Junction

/-! ### Conditions and clauses -/

open Fragment

/-- The names of the fields do not depend on the conditions. -/
theorem related_renderField {s : Scope} (field : String) {C D : String → List Fragment}
    (h : ∀ key, List.Forall₂ (Related P) (C key) (D key)) :
    Related P (renderField s field C) (renderField s field D) := by
  unfold renderField
  split
  · next k names _ =>
    have hnames : List.Forall₂ (Related P) (names.map fun n => conjoined (C (s.key n)))
        (names.map fun n => conjoined (D (s.key n))) :=
      forall₂_map_of_mem fun n _ => related_conjoined (h (s.key n))
    exact (related_join _ hnames).enclosed
  · exact related_conjoined (h (s.key field))

theorem related_renderBesides {body body' : Fragment} {soft soft' : Option Fragment}
    (hbody : Related P body body') (hsoft : Option.Rel (Related P) soft soft') :
    Related P (renderBesides body soft) (renderBesides body' soft') := by
  cases hsoft with
  | none => exact hbody
  | some h =>
    exact related_join _ (related_visible (.cons hbody.enclosedIfAny (.cons h .nil)))

theorem related_renderWhere {body body' : Fragment} (h : Related P body body') :
    Related P (renderWhere body) (renderWhere body') := by
  unfold renderWhere
  rw [h.isEmpty_eq]
  split
  · exact .nil
  · exact h.text _

/-- A statement, or a part of one, around clauses that correspond. -/
theorem Layout.related_fill {clause clause' : Slot → Fragment} (parts : List LayoutPart)
    (h : ∀ slot, .slot slot ∈ parts → Related P (clause slot) (clause' slot)) :
    Related P (fill clause parts) (fill clause' parts) := by
  induction parts with
  | nil => exact .nil
  | cons part parts ih =>
    have hpart : Related P (fillPart clause part) (fillPart clause' part) := by
      cases part with
      | word w => exact related_ofText w
      | slot slot => exact h slot List.mem_cons_self
    exact hpart.append (ih fun slot hslot => h slot (List.mem_cons_of_mem _ hslot))

end SqlSelect
