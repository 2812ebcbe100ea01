import SqlSelect.Proofs.Comments.Ending
import SqlSelect.Proofs.Document.Congruence
import SqlSelect.Proofs.Pieces

/-!
# What comments say

The comment of a subquery or of a united statement stands in the midst of a statement, in front of
values that are still to come. Whether they come to their own marks depends on what the comment
says.

* `Document.mapComments f d`: the document with other comments, at every depth. The comments of `d`
  serve as names for their places, and `f` says which comment stands in a place;
* `Document.related_front_mapComments`: in any two wordings a document is rendered to the same
  pieces, up to the comments;
* `Comment.IsHarmless`: a comment without marks that leaves no quoted text open;
* `Renderer.realSql_mapComments`: with harmless comments each value stands in the place of its own
  mark, and any other comment can take the value of a mark behind it or hide the mark.
-/

namespace SqlSelect

open Placeholder

/-! ### Comments in a document -/

namespace Comment

/-- A comment as it is written. -/
def write (text : String) : String := " /* " ++ commentBody text ++ " */"

/-- A comment that is there, has no mark in it and leaves no quoted text open. -/
structure IsHarmless (text : String) : Prop where
  ne_empty : text ≠ ""
  isClosed : Placeholder.isClosed (commentBody text) = true
  count : Placeholder.count (commentBody text) = 0

instance : DecidablePred IsHarmless := fun text =>
  decidable_of_iff (text ≠ "" ∧ Placeholder.isClosed (commentBody text) = true ∧
    Placeholder.count (commentBody text) = 0)
    ⟨fun ⟨hne, hclosed, hcount⟩ => ⟨hne, hclosed, hcount⟩,
      fun h => ⟨h.ne_empty, h.isClosed, h.count⟩⟩

theorem isSound_write {text : String} (h : IsHarmless text) :
    Piece.IsSound (.text (write text)) := by
  have hopening : Text.IsOver isInert " /* " := by decide
  have hclosing : isCalm " */" = true := by decide
  have hwrite : write text = " /* " ++ (commentBody text ++ " */") := String.append_assoc ..
  refine ⟨?_, ?_, by simp [Piece.params]⟩
  · rw [Piece.sql, hwrite, String.toList_append, after_append, after_plain_of_isInert hopening,
      after_append_of_isClosed h.isClosed hclosing (by decide)]
    decide
  · have hcount : Placeholder.count " */" = 0 := by decide
    rw [Piece.sql, hwrite, count_append_of_isInert hopening, count_append h.isClosed hclosing,
      h.count, hcount]
    rfl

end Comment

mutual

/-- The condition with the texts of its comments replaced. -/
def Condition.mapComments (f : String → String) : Condition → Condition
  | .inQuery query negated => .inQuery (query.mapComments f) negated
  | c => c

/-- The same of some conditions. -/
def Condition.mapCommentsEach (f : String → String) : List Condition → List Condition
  | [] => []
  | c :: cs => c.mapComments f :: Condition.mapCommentsEach f cs

/-- The member of a WHERE clause with the texts of its comments replaced. -/
def Entry.mapComments (f : String → String) : Entry → Entry
  | .field name cs => .field name (Condition.mapCommentsEach f cs)
  | .raw sql binds => .raw sql binds
  | .group bs => .group (Branch.mapCommentsEach f bs)
  | .exist query negated => .exist (query.mapComments f) negated

/-- The same of some members. -/
def Entry.mapCommentsEach (f : String → String) : List Entry → List Entry
  | [] => []
  | e :: es => e.mapComments f :: Entry.mapCommentsEach f es

/-- The branch with the texts of its comments replaced. -/
def Branch.mapComments (f : String → String) : Branch → Branch
  | ⟨k, es⟩ => ⟨k, Entry.mapCommentsEach f es⟩

/-- The same of some branches. -/
def Branch.mapCommentsEach (f : String → String) : List Branch → List Branch
  | [] => []
  | b :: bs => b.mapComments f :: Branch.mapCommentsEach f bs

/-- The united statement with the texts of its comments replaced. -/
def UnionItem.mapComments (f : String → String) : UnionItem → UnionItem
  | .raw sql all => .raw sql all
  | .query query all => .query (query.mapComments f) all

/-- The same of some united statements. -/
def UnionItem.mapCommentsEach (f : String → String) : List UnionItem → List UnionItem
  | [] => []
  | u :: us => u.mapComments f :: UnionItem.mapCommentsEach f us

/-- The soft delete with the texts of its comments replaced. -/
def SoftDelete.mapComments (f : String → String) : SoftDelete → SoftDelete
  | ⟨field, condition⟩ => ⟨field, condition.mapComments f⟩

/-- The same of a soft delete that may be absent. -/
def SoftDelete.mapCommentsOption (f : String → String) : Option SoftDelete → Option SoftDelete
  | none => none
  | some soft => some (soft.mapComments f)

/-- The document with the texts of its comments replaced, at every depth. -/
def Document.mapComments (f : String → String) : Document → Document
  | d@{ filter, unions, softDelete, comment, .. } =>
    { d with
      filter := Branch.mapCommentsEach f filter
      unions := UnionItem.mapCommentsEach f unions
      softDelete := SoftDelete.mapCommentsOption f softDelete
      comment := comment.map f }

end

theorem Condition.mapCommentsEach_eq_map (f : String → String) (cs : List Condition) :
    Condition.mapCommentsEach f cs = cs.map (Condition.mapComments f) := by
  induction cs with
  | nil => rfl
  | cons c cs ih => simp [Condition.mapCommentsEach, ih]

theorem Entry.mapCommentsEach_eq_map (f : String → String) (es : List Entry) :
    Entry.mapCommentsEach f es = es.map (Entry.mapComments f) := by
  induction es with
  | nil => rfl
  | cons e es ih => simp [Entry.mapCommentsEach, ih]

theorem Branch.mapCommentsEach_eq_map (f : String → String) (bs : List Branch) :
    Branch.mapCommentsEach f bs = bs.map (Branch.mapComments f) := by
  induction bs with
  | nil => rfl
  | cons b bs ih => simp [Branch.mapCommentsEach, ih]

theorem UnionItem.mapCommentsEach_eq_map (f : String → String) (us : List UnionItem) :
    UnionItem.mapCommentsEach f us = us.map (UnionItem.mapComments f) := by
  induction us with
  | nil => rfl
  | cons u us ih => simp [UnionItem.mapCommentsEach, ih]

theorem SoftDelete.mapCommentsOption_eq_map (f : String → String) (x : Option SoftDelete) :
    SoftDelete.mapCommentsOption f x = x.map (SoftDelete.mapComments f) := by
  cases x <;> rfl

/-- The comments of a document are its own one and those below it. -/
theorem Document.mapComments_eq (f : String → String) (d : Document) :
    d.mapComments f = { d with
      filter := d.filter.map (Branch.mapComments f)
      unions := d.unions.map (UnionItem.mapComments f)
      softDelete := d.softDelete.map (SoftDelete.mapComments f)
      comment := d.comment.map f } := by
  cases d
  rw [Document.mapComments, Branch.mapCommentsEach_eq_map, UnionItem.mapCommentsEach_eq_map,
    SoftDelete.mapCommentsOption_eq_map]

/-! ### Two wordings side by side -/

/-- The same piece, or a comment in the two wordings. -/
inductive Piece.Reworded (f g : String → String) : Piece → Piece → Prop
  | same (p : Piece) : Reworded f g p p
  | comment (name : String) :
    Reworded f g (.text (Comment.write (f name))) (.text (Comment.write (g name)))

variable {f g : String → String}

instance : Piece.IsCongruence (Piece.Reworded f g) where
  text s := .same _
  sql_eq_empty_iff h := by
    cases h with
    | same p => rfl
    | comment name => simp [Piece.sql, Comment.write, String.append_eq_empty_iff]

open Fragment

theorem Fragment.related_self (p : Fragment) : Related (Piece.Reworded f g) p p :=
  List.forall₂_same.2 fun q _ => .same q

/-- The comment at the end does not count for what stands in front of it. -/
theorem Document.front_comment (r : Renderer) (d : Document) (x : Option String) :
    { d with comment := x }.front r = d.front r := rfl

/-- The other flat clauses are the same in every wording. -/
theorem Document.clauseText_mapComments (f : String → String) (d : Document) (r : Renderer)
    {slot : Slot} (hslot : slot ≠ .comment) :
    (d.mapComments f).clauseText r slot = d.clauseText r slot := by
  rw [mapComments_eq]
  cases slot with
  | comment => exact absurd rfl hslot
  | _ => rfl

/-- Around conditions and unions that correspond, everything up to the comment at the end does. -/
theorem Document.related_front {d : Document} {r : Renderer}
    (hfilter : ∀ b ∈ d.filter, ∀ s, Junction.Related (Piece.Reworded f g)
      ((b.mapComments f).render s) ((b.mapComments g).render s))
    (hsoft : ∀ soft ∈ d.softDelete, ∀ s key, Related (Piece.Reworded f g)
      ((soft.condition.mapComments f).render s key) ((soft.condition.mapComments g).render s key))
    (hunions : ∀ u ∈ d.unions, Related (Piece.Reworded f g)
      ((u.mapComments f).render r) ((u.mapComments g).render r)) :
    Related (Piece.Reworded f g) ((d.mapComments f).front r) ((d.mapComments g).front r) := by
  have hscope : ∀ h, (d.mapComments h).scope r = d.scope r := fun h => by
    rw [mapComments_eq]
    rfl
  refine Layout.related_fill _ fun slot hslot => ?_
  cases slot with
  | filter =>
    refine related_renderWhere (related_renderBesides (Junction.related_renderAll ?_) ?_)
    · rw [hscope, hscope, mapComments_eq, mapComments_eq, Branch.renderEach_eq_map,
        Branch.renderEach_eq_map, List.map_map, List.map_map]
      exact forall₂_map_of_mem fun b hb => hfilter b hb _
    · rw [hscope, hscope, mapComments_eq, mapComments_eq]
      cases hx : d.softDelete with
      | none => exact .none
      | some soft =>
        obtain ⟨field, condition⟩ := soft
        refine .some ?_
        exact related_renderField field fun key => .cons (hsoft _ hx _ key) .nil
  | unions =>
    simp only [renderClause]
    rw [mapComments_eq, mapComments_eq, UnionItem.renderAll_eq_flatMap,
      UnionItem.renderAll_eq_flatMap, List.flatMap_map, List.flatMap_map]
    exact List.rel_flatten (forall₂_map_of_mem hunions)
  | comment => exact absurd hslot (by decide)
  | _ =>
    simp only [renderClause]
    rw [clauseText_mapComments f d r (by decide), clauseText_mapComments g d r (by decide)]
    exact related_self _

/-- Each kind of node is rendered to the same pieces in both wordings, up to the comments. -/
theorem reworded_induction (hf : ∀ n, f n ≠ "") (hg : ∀ n, g n ≠ "") : DocumentInduction
    (fun c => ∀ s key, Related (Piece.Reworded f g)
      ((c.mapComments f).render s key) ((c.mapComments g).render s key))
    (fun e => ∀ s, Related (Piece.Reworded f g)
      ((e.mapComments f).render s) ((e.mapComments g).render s))
    (fun b => ∀ s, Junction.Related (Piece.Reworded f g)
      ((b.mapComments f).render s) ((b.mapComments g).render s))
    (fun u => ∀ r, Related (Piece.Reworded f g)
      ((u.mapComments f).render r) ((u.mapComments g).render r))
    (fun d => ∀ r, Related (Piece.Reworded f g)
      ((d.mapComments f).render r) ((d.mapComments g).render r)) where
  compare op v s key := related_self _
  compareRaw op sql s key := related_self _
  isNull s key := related_self _
  isNotNull s key := related_self _
  inList vs negated s key := related_self _
  between low high negated s key := related_self _
  exp sql binds s key := related_self _
  inQuery query negated ih s key := (ih s.renderer).within _ _
  field name cs ih s := by
    rw [Entry.mapComments, Entry.mapComments, Entry.render, Entry.render]
    refine related_renderField name fun key => ?_
    rw [Condition.mapCommentsEach_eq_map, Condition.mapCommentsEach_eq_map,
      Condition.renderEach_eq_map, Condition.renderEach_eq_map, List.map_map, List.map_map]
    exact forall₂_map_of_mem fun c hc => ih c hc s key
  raw sql binds s := related_self _
  group bs ih s := by
    rw [Entry.mapComments, Entry.mapComments, Entry.render, Entry.render]
    refine (Junction.related_renderAll ?_).enclosedIfAny
    rw [Branch.mapCommentsEach_eq_map, Branch.mapCommentsEach_eq_map,
      Branch.renderEach_eq_map, Branch.renderEach_eq_map, List.map_map, List.map_map]
    exact forall₂_map_of_mem fun b hb => ih b hb s
  exist query negated ih s := (ih s.renderer).within _ _
  branch k es ih s := by
    refine ⟨rfl, related_visible ?_⟩
    rw [Entry.mapCommentsEach_eq_map, Entry.mapCommentsEach_eq_map,
      Entry.renderEach_eq_map, Entry.renderEach_eq_map, List.map_map, List.map_map]
    exact forall₂_map_of_mem fun e he => ih e he s
  unionRaw sql all r := related_self _
  unionQuery query all ih r := (ih r).within _ _
  document d ihfilter ihsoft ihunions r := by
    rw [Document.render_eq_front, Document.render_eq_front]
    refine (Document.related_front ihfilter ihsoft fun u hu => ihunions u hu r).append ?_
    rw [Document.mapComments_eq, Document.mapComments_eq]
    cases hcomment : d.comment with
    | none => exact related_self _
    | some name =>
      simp only [Document.clauseText, Option.map_some, if_neg (hf name), if_neg (hg name)]
      exact .cons (.comment name) .nil

/-! ### Values and comments -/

/-- A text in which places are left for comments. Each place has a name. -/
inductive Frame
  | done
  | text (s : String) (rest : Frame)
  | comment (name : String) (rest : Frame)

/-- The text with comments in their places. -/
def Frame.fill (f : String → String) : Frame → String
  | done => ""
  | text s rest => s ++ rest.fill f
  | comment name rest => Comment.write (f name) ++ rest.fill f

namespace Fragment.Related

variable {p q : Fragment}

/-- With the values in their places, too, the two wordings are the same up to the comments. -/
theorem exists_frame (h : Related (Piece.Reworded f g) p q) :
    ∃ frame : Frame, p.inlined = frame.fill f ∧ q.inlined = frame.fill g := by
  induction h with
  | nil => exact ⟨.done, rfl, rfl⟩
  | @cons a _ _ _ hpiece _ ih =>
    obtain ⟨frame, hp, hq⟩ := ih
    rw [inlined_cons, inlined_cons, hp, hq]
    cases hpiece with
    | same => exact ⟨.text a.inlined frame, rfl, rfl⟩
    | comment name => exact ⟨.comment name frame, rfl, rfl⟩

/-- Harmless comments leave the pieces sound. -/
theorem isSound (h : Related (Piece.Reworded f g) p q) (hg : ∀ n, Comment.IsHarmless (g n))
    (hp : ∀ a ∈ p, a.IsSound) : ∀ b ∈ q, b.IsSound := by
  induction h with
  | nil => exact hp
  | cons hpiece _ ih =>
    obtain ⟨ha, hp⟩ := List.forall_mem_cons.1 hp
    refine List.forall_mem_cons.2 ⟨?_, ih hp⟩
    cases hpiece with
    | same => exact ha
    | comment name => exact Comment.isSound_write (hg name)

end Fragment.Related

namespace Document

variable {r : Renderer} {d : Document}

theorem inlined_render (r : Renderer) (d : Document) :
    (d.render r).inlined = (d.front r).inlined ++ d.clauseText r .comment := by
  rw [render_eq_front, inlined_append]
  simp [Piece.inlined]

/-- In front of the comment at the end, which has no values, each value stands in the place of its
own mark. -/
theorem realSql_of_isSound (h : ∀ p ∈ d.front r, p.IsSound) :
    (r.select d).realSql = (d.render r).inlined := by
  have hparams : (d.render r).params = (d.front r).params := by
    rw [render_eq_front, params_append]
    simp [Piece.params]
  have hunnamed : ∀ p ∈ (d.front r).params, p.isNamed = false := fun p hp => by
    obtain ⟨piece, hpiece, hp⟩ := List.mem_flatMap.1 hp
    exact (h piece hpiece).unnamed p hp
  simp only [Renderer.select, Statement.realSql, Statement.sql_ofFragment,
    Statement.params_ofFragment]
  rw [inlined_eq_fillLexemes, hparams, fillLexemes_of_unnamed hunnamed, sql_render_eq_front,
    fillLexemes_of_isSound h, inlined_render]

/-- Up to the comment at its end a statement is the same in all wordings. -/
theorem related_front_mapComments (hf : ∀ n, f n ≠ "") (hg : ∀ n, g n ≠ "") (r : Renderer)
    (d : Document) :
    Related (Piece.Reworded f g) ((d.mapComments f).front r) ((d.mapComments g).front r) := by
  have h := reworded_induction hf hg
  exact related_front (fun b _ => h.ofBranch b) (fun soft _ => h.ofCondition soft.condition)
    fun u _ => h.ofUnionItem u r

/-- A document that is well quoted up to its comments is sound in every harmless wording. -/
theorem isSound_front_mapComments (hr : r.dialect = .generic ∨ r.dialect = .mysql)
    (hd : (d.mapComments fun _ => "-").WellQuoted r) (hf : ∀ n, Comment.IsHarmless (f n)) :
    ∀ p ∈ (d.mapComments f).front r, p.IsSound := by
  have hinert := Renderer.isInert_of_dialect hr hd.tablePrefix
  have hwrites := writes_render hinert fun t ht => hd.leaves _ ht
  have hsound := hwrites.isSound fun l hl => hd.leaves l (List.mem_filter.1 hl).1
  rw [render_eq_front, List.forall_mem_append] at hsound
  have hrelated := related_front_mapComments (f := fun _ => "-") (fun _ => by decide)
    (fun n => (hf n).ne_empty) r d
  exact hrelated.isSound hf hsound.1

end Document

/-! ### A comment in front of a value -/

/-- A subquery with a comment in it, and a value behind it. -/
def Document.hidingSample (text : String) : Document :=
  { tables := ["t"]
    filter := [⟨.and, [.exist { tables := ["u"], comment := some text } false,
      .field "a" [.compare .eq (.int 5)]]⟩] }

/-- The pieces of the statement. -/
theorem Document.render_hidingSample {text : String} (h : text ≠ "") :
    (hidingSample text).render {} =
      ["SELECT", "", " ", "*", " FROM ", "t", "", "", " WHERE ", "EXISTS (", "SELECT", "", " ", "*",
        " FROM ", "u", "", "", "", "", "", "", "", Comment.write text, ")", " AND ",
        "a = "].map .text ++
      .mark (.int 5) :: ["", "", "", "", "", ""].map .text := by
  have hkey : Scope.key ⟨{}, {}⟩ "a" = "a" := by decide +kernel
  have hfan : Name.fanOut? "a" = none := by decide +kernel
  have htable : Scope.table ⟨{}, {}⟩ "t" = "t" ∧ Scope.table ⟨{}, {}⟩ "u" = "u" := by
    decide +kernel
  simp [hidingSample, render_eq, renderClause, renderFilter, Document.scope, clauseText,
    Branch.renderEach, Branch.render, Entry.renderEach, Entry.render, Condition.renderEach,
    renderField, hkey, hfan, htable, visible, isEmpty, Fragment.within, Piece.sql,
    Condition.render, Comparison.render, renderWhere, renderBesides, Junction.renderAll,
    Junction.renderNonempty, Junction.render, Fragment.join, Scope.fields, UnionItem.renderAll, h,
    Comment.write, negation, conjoined, Junction.separator, Connective.keyword, Comparison.sql]

/-- The value behind the subquery comes to its mark just if the comment is harmless. -/
theorem Document.realSql_hidingSample_iff {text : String} (h : text ≠ "") :
    (Renderer.select {} (hidingSample text)).realSql =
        "SELECT * FROM t WHERE EXISTS (SELECT * FROM u" ++ Comment.write text ++ ") AND a = 5" ↔
      Comment.IsHarmless text := by
  have hopening : Text.IsOver isInert "SELECT * FROM t WHERE EXISTS (SELECT * FROM u /* " := by
    decide
  have hclosing : Text.IsOver isInert " */) AND a = " ∧ isCalm " */) AND a = " = true := by decide
  have hparams : ((hidingSample text).render {}).params = [.positional (.int 5)] := by
    rw [render_hidingSample h]
    rfl
  have hsql : ((hidingSample text).render {}).sql =
      "SELECT * FROM t WHERE EXISTS (SELECT * FROM u /* " ++
        (commentBody text ++ (" */) AND a = " ++ "?")) := by
    rw [render_hidingSample h, ← String.toList_inj]
    simp [Piece.sql, Comment.write]
  have hwritten : "SELECT * FROM t WHERE EXISTS (SELECT * FROM u" ++ Comment.write text ++
      ") AND a = 5" = "SELECT * FROM t WHERE EXISTS (SELECT * FROM u /* " ++
        (commentBody text ++ (" */) AND a = " ++ (Value.int 5).literal)) := by
    have hfive : (Value.int 5).literal = "5" := by decide +kernel
    rw [hfive, ← String.toList_inj]
    simp [Comment.write]
  have hliteral : (Value.int 5).literal.toList.getLast? = some '5' := by decide +kernel
  have hunnamed : Params.unnamed [.positional (.int 5)] = [.int 5] := rfl
  simp only [Renderer.select, Statement.realSql, Statement.sql_ofFragment,
    Statement.params_ofFragment]
  rw [inlined_eq_fillLexemes, hparams, fillLexemes_of_unnamed (by simp), hunnamed, hsql,
    lexemes_append_of_isInert hopening, fillLexemes_chars_append, String.ofList_toList, hwritten,
    String.append_right_inj,
    fillLexemes_behind_iff hclosing.1 hclosing.2 (by decide) (by decide) hliteral (by decide)]
  constructor
  · rintro ⟨hclosed, hcount⟩
    exact ⟨h, hclosed, hcount⟩
  · exact fun h => ⟨h.isClosed, h.count⟩

/-- Comments that are harmless do not move values. A document that is well quoted up to its comments
is given two wordings with harmless comments, and any comments or none at its own end. Both
statements have each value in the place of its own mark when the values are written in, and are the
same text up to their comments. Harmless comments are all that this can be said of: any other one in
a subquery keeps the value behind it from its mark. -/
theorem Renderer.realSql_mapComments {r : Renderer} {d : Document}
    (hr : r.dialect = .generic ∨ r.dialect = .mysql)
    (hd : (d.mapComments fun _ => "-").WellQuoted r) :
    (∀ f g : String → String, (∀ n, Comment.IsHarmless (f n)) → (∀ n, Comment.IsHarmless (g n)) →
      ∀ x y : Option String,
        let d₁ := { d.mapComments f with comment := x }
        let d₂ := { d.mapComments g with comment := y }
        (r.select d₁).realSql = (d₁.render r).inlined ∧
          ∃ frame : Frame, (r.select d₁).realSql = frame.fill f ++ d₁.clauseText r .comment ∧
            (r.select d₂).realSql = frame.fill g ++ d₂.clauseText r .comment) ∧
      ∀ text, text ≠ "" →
        ((Renderer.select {} (.hidingSample text)).realSql =
            "SELECT * FROM t WHERE EXISTS (SELECT * FROM u" ++ Comment.write text ++ ") AND a = 5" ↔
          Comment.IsHarmless text) := by
  refine ⟨fun f g hf hg x y => ?_, fun text => Document.realSql_hidingSample_iff⟩
  intro d₁ d₂
  have hfront₁ : d₁.front r = (d.mapComments f).front r := Document.front_comment r _ x
  have hfront₂ : d₂.front r = (d.mapComments g).front r := Document.front_comment r _ y
  have hsound₁ : ∀ p ∈ d₁.front r, p.IsSound := by
    rw [hfront₁]
    exact Document.isSound_front_mapComments hr hd hf
  have hsound₂ : ∀ p ∈ d₂.front r, p.IsSound := by
    rw [hfront₂]
    exact Document.isSound_front_mapComments hr hd hg
  have hrelated : Related (Piece.Reworded f g) (d₁.front r) (d₂.front r) := by
    rw [hfront₁, hfront₂]
    exact Document.related_front_mapComments (fun n => (hf n).ne_empty)
      (fun n => (hg n).ne_empty) r d
  obtain ⟨frame, hframe₁, hframe₂⟩ := hrelated.exists_frame
  rw [Document.realSql_of_isSound hsound₁, Document.realSql_of_isSound hsound₂]
  refine ⟨rfl, frame, ?_, ?_⟩
  · rw [Document.inlined_render, hframe₁]
  · rw [Document.inlined_render, hframe₂]

/-- A subquery that is written twice, a united statement, and their comments. -/
def Document.wordedSample : Document :=
  { tables := ["t"]
    filter := [⟨.or, [.field "a|b" [.inQuery { tables := ["u"], comment := some "first" } false],
      .field "c" [.compare .like (.text "it's ?")]]⟩]
    unions := [.query
      { tables := ["v"]
        filter := [⟨.and, [.raw "n > ?" [.positional (.int 3)]]⟩]
        comment := some "second" } true]
    comment := some "last" }

/-- The document above with quotes, a mark in quotes and a name in its comments, and with plain
ones. -/
theorem Renderer.realSql_mapComments_wordedSample :
    let f : String → String := fun name => if name = "first" then "why 'so?'" else "see :name"
    let g : String → String := fun _ => "plain"
    let d₁ := { Document.wordedSample.mapComments f with comment := some "?" }
    let d₂ := { Document.wordedSample.mapComments g with comment := none }
    (Renderer.select {} d₁).realSql =
        "SELECT * FROM t WHERE (a IN (SELECT * FROM u /* why 'so?' */) OR " ++
          "b IN (SELECT * FROM u /* why 'so?' */)) OR c LIKE 'it''s ?' " ++
          "UNION ALL (SELECT * FROM v WHERE (n > 3) /* see :name */) /* ? */" ∧
      ∃ frame : Frame, (Renderer.select {} d₁).realSql = frame.fill f ++ " /* ? */" ∧
        (Renderer.select {} d₂).realSql = frame.fill g ++ "" := by
  intro f g d₁ d₂
  have hquoted : (Document.wordedSample.mapComments fun _ => "-").WellQuoted {} :=
    ⟨by decide, by decide +kernel⟩
  have hf : ∀ name, Comment.IsHarmless (f name) := fun name => by
    by_cases hname : name = "first"
    · simp only [f, if_pos hname]
      decide +kernel
    · simp only [f, if_neg hname]
      decide +kernel
  have hg : ∀ name, Comment.IsHarmless (g name) := fun _ => by decide +kernel
  obtain ⟨hwordings, -⟩ := Renderer.realSql_mapComments (.inl rfl) hquoted
  obtain ⟨hinlined, hframe⟩ := hwordings f g hf hg (some "?") none
  have hrender : (Document.render {} d₁).inlined =
      "SELECT * FROM t WHERE (a IN (SELECT * FROM u /* why 'so?' */) OR " ++
        "b IN (SELECT * FROM u /* why 'so?' */)) OR c LIKE 'it''s ?' " ++
        "UNION ALL (SELECT * FROM v WHERE (n > 3) /* see :name */) /* ? */" := by
    decide +kernel
  exact ⟨hinlined.trans hrender, hframe⟩

end SqlSelect
