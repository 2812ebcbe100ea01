import SqlSelect.Proofs.Reading.Lowering
import SqlSelect.Proofs.Subqueries.Emitting

/-!
# A subquery in its place

Whatever surrounds it, a subquery stands in the statement in parentheses as it is rendered by
itself, and its parameters stand together at this point.

* `EntryPlace`, `Place`: where a subquery stands in a WHERE clause and in a document;
* `Place.fill`, `Place.copies`: the document with a subquery in the place, and how often it is then
  written: a condition on a field text that stands for several fields is written for each of them;
* `Renderer.Hosts`: what is rendered holds the rendered subquery a number of times, and what is
  around it does not depend on it;
* `Renderer.select_places`: the statement of a document with a subquery at any depth.
-/

namespace SqlSelect

open Fragment

/-! ### Places -/

/-- What is around an entry in a list of branches. -/
structure Surroundings where
  front : List Branch
  connective : Connective
  before : List Entry
  after : List Entry
  back : List Branch

/-- The branches with an entry in the middle. -/
def Surroundings.fill (around : Surroundings) (e : Entry) : List Branch :=
  around.front ++ ⟨around.connective, around.before ++ e :: around.after⟩ :: around.back

/-- Where a subquery stands in an entry. -/
inductive EntryPlace
  | inQuery (field : String) (before after : List Condition) (negated : Bool)
  | exist (negated : Bool)
  | group (around : Surroundings) (inner : EntryPlace)

namespace EntryPlace

/-- The entry with a subquery in its place. -/
def fill : EntryPlace → Document → Entry
  | inQuery field before after negated, q => .field field (before ++ .inQuery q negated :: after)
  | exist negated, q => .exist q negated
  | group around inner, q => .group (around.fill (inner.fill q))

/-- How often the subquery is written. -/
def copies : EntryPlace → Nat
  | inQuery field _ _ _ => (Name.fields field).length
  | exist _ => 1
  | group _ inner => inner.copies

end EntryPlace

/-- Where a subquery stands in a document. -/
inductive Place
  | filter (d : Document) (around : Surroundings) (inner : EntryPlace)
  | softDelete (d : Document) (field : String) (negated : Bool)
  | union (d : Document) (before after : List UnionItem) (all : Bool)

namespace Place

/-- The document with a subquery in its place. -/
def fill : Place → Document → Document
  | filter d around inner, q => { d with filter := around.fill (inner.fill q) }
  | softDelete d field negated, q => { d with softDelete := some ⟨field, .inQuery q negated⟩ }
  | union d before after all, q => { d with unions := before ++ .query q all :: after }

/-- How often the subquery is written. -/
def copies : Place → Nat
  | filter _ _ inner => inner.copies
  | softDelete _ field _ => (Name.fields field).length
  | union _ _ _ _ => 1

/-- The document with a subquery deeper inside: each place is filled with the next one. -/
def fillAll (places : List Place) (q : Document) : Document := places.foldr fill q

end Place

/-! ### Contexts of a fragment -/

/-- The context puts a fragment between two others. -/
def Fragment.Framed (K : Fragment → Fragment) : Prop :=
  ∃ front back : Fragment, ∀ f, K f = front ++ f ++ back

namespace Fragment

variable {K L : Fragment → Fragment}

theorem Framed.comp (hK : Framed K) (hL : Framed L) : Framed (K ∘ L) := by
  obtain ⟨front, back, hK⟩ := hK
  obtain ⟨front', back', hL⟩ := hL
  refine ⟨front ++ front', back' ++ back, fun f => ?_⟩
  rw [Function.comp_apply, hK, hL]
  simp only [List.append_assoc]

theorem framed_self : Framed id := ⟨[], [], fun f => (List.append_nil f).symm⟩

theorem framed_cons (p : Piece) : Framed (p :: ·) :=
  ⟨[p], [], fun f => (List.append_nil (p :: f)).symm⟩

theorem framed_within (before after : String) : Framed (within before after) :=
  ⟨[.text before], [.text after], fun _ => rfl⟩

theorem framed_join (sep : String) (before after : List Fragment) :
    Framed fun f => join sep (before ++ f :: after) := by
  induction before with
  | nil =>
    exact ⟨[], after.flatMap fun g => .text sep :: g, fun f => join_cons sep f after⟩
  | cons g before ih =>
    obtain ⟨front, back, h⟩ := ih
    refine ⟨g ++ .text sep :: front, back, fun f => ?_⟩
    show join sep (g :: before ++ f :: after) = _
    have hcons : join sep (g :: before ++ f :: after) =
        g ++ .text sep :: join sep (before ++ f :: after) := by
      cases before <;> rfl
    have hrest : join sep (before ++ f :: after) = front ++ f ++ back := h f
    rw [hcons, hrest]
    simp

theorem framed_conjoined (before after : List Fragment) :
    Framed fun f => conjoined (before ++ f :: after) := by
  match before, after with
  | [], [] => exact framed_self
  | [], g :: after => exact (framed_within "(" ")").comp (framed_join " AND " [] (g :: after))
  | [g], after => exact (framed_within "(" ")").comp (framed_join " AND " [g] after)
  | g :: g' :: before, after =>
    exact (framed_within "(" ")").comp (framed_join " AND " (g :: g' :: before) after)

end Fragment

namespace Junction

theorem renderRest_append (js ks : List Junction) :
    renderRest (js ++ ks) = renderRest js ++ renderRest ks := by
  induction js with
  | nil => rfl
  | cons j js ih => rw [List.cons_append, renderRest, renderRest, ih, List.cons_append,
      List.append_assoc]

theorem framed_renderNonempty (js ks : List Junction) (k : Connective)
    (before after : List Fragment) :
    Framed fun f => renderNonempty (js ++ ⟨k, before ++ f :: after⟩ :: ks) := by
  have hrender := framed_join (separator k) before after
  match js, ks with
  | [], [] => exact hrender
  | [], i :: ks =>
    have hback : Framed fun f => f.enclosed ++ renderRest (i :: ks) :=
      ⟨[.text "("], .text ")" :: renderRest (i :: ks), fun f => by simp [enclosed, within]⟩
    exact hback.comp hrender
  | i :: js, ks =>
    have hrest : Framed fun f => i.render.enclosed ++
        (renderRest js ++ .text (separator k) :: (f.enclosed ++ renderRest ks)) :=
      ⟨i.render.enclosed ++ (renderRest js ++ [.text (separator k), .text "("]),
        .text ")" :: renderRest ks, fun f => by simp [enclosed, within]⟩
    obtain ⟨front, back, h⟩ := hrest.comp hrender
    refine ⟨front, back, fun f => Eq.trans ?_ (h f)⟩
    show renderNonempty (i :: js ++ ⟨k, before ++ f :: after⟩ :: ks) = _
    have hall : renderNonempty (i :: js ++ ⟨k, before ++ f :: after⟩ :: ks) =
        i.render.enclosed ++ renderRest (js ++ ⟨k, before ++ f :: after⟩ :: ks) := by
      cases js <;> rfl
    rw [hall, renderRest_append]
    rfl

end Junction

/-! ### Hosts of a subquery -/

/-- The fragments have the same text and the same parameters. -/
structure Fragment.Same (f g : Fragment) : Prop where
  sql : f.sql = g.sql
  params : f.params = g.params

namespace Fragment.Same

variable {f g h f' g' : Fragment}

theorem of_eq (h : f = g) : Same f g := ⟨congrArg Fragment.sql h, congrArg Fragment.params h⟩

theorem trans (hfg : Same f g) (hgh : Same g h) : Same f h :=
  ⟨hfg.sql.trans hgh.sql, hfg.params.trans hgh.params⟩

theorem append (hf : Same f f') (hg : Same g g') : Same (f ++ g) (f' ++ g') where
  sql := by rw [sql_append, sql_append, hf.sql, hg.sql]
  params := by rw [params_append, params_append, hf.params, hg.params]

theorem isEmpty_eq (h : Same f g) : f.isEmpty = g.isEmpty := by
  rw [Bool.eq_iff_iff, Fragment.isEmpty_iff, Fragment.isEmpty_iff, h.sql]

end Fragment.Same

/-- What is rendered around a subquery holds it `n` times, in parentheses as it is rendered by
itself, and what stands between does not depend on it. -/
inductive Renderer.Hosts (r : Renderer) : Nat → (Document → Fragment) → Prop
  | fixed (f : Fragment) : Hosts r 0 fun _ => f
  | place : Hosts r 1 fun q => (q.render r).enclosed
  | append {m n : Nat} {F G : Document → Fragment} :
      Hosts r m F → Hosts r n G → Hosts r (m + n) fun q => F q ++ G q
  | congr {n : Nat} {F G : Document → Fragment} :
      Hosts r n F → (∀ q, Same (G q) (F q)) → Hosts r n G

theorem Fragment.sql_intercalate (sub : Fragment) (fs : List Fragment) :
    Fragment.sql (sub.intercalate fs) = Text.join sub.sql (fs.map sql) := by
  match fs with
  | [] => rfl
  | [f] => rw [List.intercalate_singleton, List.map_singleton, Text.join_singleton]
  | f :: g :: fs =>
    have hrest := sql_intercalate sub (g :: fs)
    rw [List.intercalate_cons_cons, sql_append, sql_append, hrest]
    rfl

theorem Fragment.params_intercalate (sub : Fragment) (fs : List Fragment) :
    Fragment.params (sub.intercalate fs) = sub.params.intercalate (fs.map params) := by
  match fs with
  | [] => rfl
  | [f] => rw [List.intercalate_singleton, List.map_singleton, List.intercalate_singleton]
  | f :: g :: fs =>
    have hrest := params_intercalate sub (g :: fs)
    rw [List.intercalate_cons_cons, params_append, params_append, hrest]
    exact List.intercalate_cons_cons.symm

namespace Renderer.Hosts

variable {r : Renderer} {m n : Nat} {F G : Document → Fragment}

theorem framed {K : Fragment → Fragment} (h : Hosts r n F) (hK : Framed K) :
    Hosts r n fun q => K (F q) := by
  obtain ⟨front, back, hK⟩ := hK
  have hall := ((fixed front).append h).append (fixed back)
  rw [Nat.zero_add, Nat.add_zero] at hall
  simpa only [hK] using hall

/-- What holds a subquery has text. -/
theorem isEmpty_cases (h : Hosts r n F) :
    (n = 0 ∧ ∀ q, (F q).isEmpty = true) ∨ ∀ q, (F q).isEmpty = false := by
  induction h with
  | fixed f =>
    cases hf : f.isEmpty with
    | true => exact .inl ⟨rfl, fun _ => hf⟩
    | false => exact .inr fun _ => hf
  | place => exact .inr fun _ => rfl
  | append _ _ ihF ihG =>
    have happend (f g : Fragment) : Fragment.isEmpty (f ++ g) = (f.isEmpty && g.isEmpty) :=
      List.all_append
    simp only [happend]
    rcases ihF with ⟨hm, hF⟩ | hF
    · rcases ihG with ⟨hn, hG⟩ | hG
      · exact .inl ⟨by rw [hm, hn], fun q => by rw [hF, hG]; rfl⟩
      · exact .inr fun q => by rw [hG, Bool.and_false]
    · exact .inr fun q => by rw [hF, Bool.false_and]
  | congr _ hsame ih =>
    simp only [fun q => (hsame q).isEmpty_eq]
    exact ih

/-- In the place of the subquery stands a document that holds another one. -/
theorem subst (h : Hosts r n F) {D : Document → Document}
    (hD : Hosts r m fun q => (D q).render r) : Hosts r (n * m) fun q => F (D q) := by
  induction h with
  | fixed f =>
    rw [Nat.zero_mul]
    exact .fixed f
  | place =>
    rw [Nat.one_mul]
    exact hD.framed (framed_within "(" ")")
  | append _ _ ihF ihG =>
    rw [Nat.add_mul]
    exact ihF.append ihG
  | congr _ hsame ih => exact ih.congr fun q => hsame (D q)

/-- What does not depend on the subquery. -/
theorem of_forall_eq {f : Fragment} (h : ∀ q, F q = f) : Hosts r 0 F := by
  rw [funext h]
  exact fixed f

theorem enclosedIfAny (h : Hosts r n F) : Hosts r n fun q => (F q).enclosedIfAny := by
  rcases h.isEmpty_cases with ⟨rfl, hempty⟩ | hvisible
  · exact of_forall_eq fun q => if_pos (hempty q)
  · have hall := h.framed (framed_within "(" ")")
    refine hall.congr fun q => .of_eq ?_
    rw [Fragment.enclosedIfAny, hvisible q]
    rfl

/-- One of the parts that are joined, if it has text. -/
theorem join_visible (sep : String) (before after : List Fragment) (h : Hosts r n F) :
    Hosts r n fun q => join sep (visible (before ++ F q :: after)) := by
  rcases h.isEmpty_cases with ⟨rfl, hempty⟩ | hvisible
  · refine of_forall_eq (f := join sep (visible before ++ visible after)) fun q => ?_
    simp [visible, hempty q]
  · have hall := h.framed (framed_join sep (visible before) (visible after))
    refine hall.congr fun q => .of_eq ?_
    simp [visible, hvisible q]

/-- One of the junctions, of which one of the parts holds the subquery. -/
theorem renderAll (js ks : List Junction) (k : Connective) (before after : List Fragment)
    (h : Hosts r n F) :
    Hosts r n fun q => Junction.renderAll (js ++ ⟨k, visible (before ++ F q :: after)⟩ :: ks) := by
  rcases h.isEmpty_cases with ⟨rfl, hempty⟩ | hvisible
  · refine of_forall_eq
      (f := Junction.renderAll (js ++ ⟨k, visible before ++ visible after⟩ :: ks)) fun q => ?_
    simp [visible, hempty q]
  · have hall := h.framed (Junction.framed_renderNonempty (js.filter fun j => !j.parts.isEmpty)
      (ks.filter fun j => !j.parts.isEmpty) k (visible before) (visible after))
    refine hall.congr fun q => .of_eq ?_
    simp [Junction.renderAll, visible, hvisible q]

theorem renderWhere (h : Hosts r n F) : Hosts r n fun q => SqlSelect.renderWhere (F q) := by
  rcases h.isEmpty_cases with ⟨rfl, hempty⟩ | hvisible
  · exact of_forall_eq fun q => if_pos (hempty q)
  · refine (h.framed (framed_cons (.text " WHERE "))).congr fun q => .of_eq ?_
    rw [SqlSelect.renderWhere, hvisible q]
    rfl

/-- Parts that each hold the subquery `n` times. -/
theorem join_map {α : Type} (sep : String) (as : List α) {part : α → Document → Fragment}
    (h : ∀ a, Hosts r n (part a)) :
    Hosts r (as.length * n) fun q => join sep (as.map (part · q)) := by
  have hrest (as : List α) :
      Hosts r (as.length * n) fun q => as.flatMap fun a => .text sep :: part a q := by
    induction as with
    | nil =>
      rw [List.length_nil, Nat.zero_mul]
      exact .fixed []
    | cons a as ih =>
      rw [List.length_cons, Nat.succ_mul, Nat.add_comm]
      exact ((h a).framed (framed_cons (.text sep))).append ih
  cases as with
  | nil =>
    rw [List.length_nil, Nat.zero_mul]
    exact .fixed []
  | cons a as =>
    rw [List.length_cons, Nat.succ_mul, Nat.add_comm]
    simp only [List.map_cons, join_cons, List.flatMap_map]
    exact (h a).append (hrest as)

/-- A condition on a field text is written for each of the fields. -/
theorem renderField (s : Scope) (field : String) (before after : String → List Fragment)
    {part : String → Document → Fragment} (h : ∀ key, Hosts r n (part key)) :
    Hosts r ((Name.fields field).length * n) fun q =>
      SqlSelect.renderField s field fun key => before key ++ part key q :: after key := by
  have hpart (key : String) :
      Hosts r n fun q => conjoined (before key ++ part key q :: after key) :=
    (h key).framed (framed_conjoined (before key) (after key))
  unfold SqlSelect.renderField
  cases hfan : Name.fanOut? field with
  | none =>
    rw [Name.fields_of_none hfan, List.length_singleton, Nat.one_mul]
    exact hpart (s.key field)
  | some fan =>
    obtain ⟨k, names⟩ := fan
    rw [Name.fields_of_fanOut? hfan]
    have hjoined := join_map (Junction.separator k) names fun n => hpart (s.key n)
    exact hjoined.framed (framed_within "(" ")")

/-- A subquery in parentheses behind some words. -/
theorem within (words : String) {opening : String} (h : opening = words ++ "(") :
    Hosts r 1 fun q => (q.render r).within opening ")" := by
  refine (Hosts.place.framed (framed_cons (.text words))).congr fun q => ⟨?_, ?_⟩
  · rw [sql_within, sql_cons, sql_enclosed, h]
    simp only [Piece.sql, String.append_assoc]
  · rw [params_within, params_cons, params_enclosed]
    rfl

theorem inQuery (s : Scope) (key : String) (negated : Bool) :
    Hosts s.renderer 1 fun q => (Condition.inQuery q negated).render s key := by
  simp only [Condition.render]
  refine within (key ++ " " ++ negation negated ++ "IN ") ?_
  have hopening : "IN (" = "IN " ++ "(" := rfl
  rw [hopening, ← String.append_assoc]

theorem exist (s : Scope) (negated : Bool) :
    Hosts s.renderer 1 fun q => (Entry.exist q negated).render s := by
  simp only [Entry.render]
  refine within (negation negated ++ "EXISTS ") ?_
  have hopening : "EXISTS (" = "EXISTS " ++ "(" := rfl
  rw [hopening, ← String.append_assoc]

theorem union (all : Bool) : Hosts r 1 fun q => (UnionItem.query q all).render r := by
  simp only [UnionItem.render]
  exact within (unionKeyword all) rfl

/-- What stands around the copies of the subquery, from left to right. With `rest` behind it, the
last part of it and the first of `rest` become one. -/
theorem exists_outside (h : Hosts r n F) {rest : List Fragment} (hrest : rest ≠ []) :
    ∃ outside : List Fragment, outside.length = n + rest.length ∧ ∀ q,
      Same (F q ++ (q.render r).enclosed.intercalate rest)
        ((q.render r).enclosed.intercalate outside) := by
  induction h generalizing rest with
  | fixed f =>
    obtain ⟨g, rest, rfl⟩ := List.exists_cons_of_ne_nil hrest
    refine ⟨(f ++ g) :: rest, by simp, fun q => .of_eq ?_⟩
    cases rest with
    | nil => rw [List.intercalate_singleton, List.intercalate_singleton]
    | cons g' rest => simp only [List.intercalate_cons_cons, List.append_assoc]
  | place =>
    refine ⟨[] :: rest, by rw [List.length_cons, Nat.add_comm], fun q => .of_eq ?_⟩
    rw [List.intercalate_cons_of_ne_nil hrest, List.nil_append]
  | @append m n F G _ _ ihF ihG =>
    obtain ⟨outside, hlength, houtside⟩ := ihG hrest
    have hne : outside ≠ [] := by
      have hpos := List.length_pos_of_ne_nil hrest
      exact List.ne_nil_of_length_pos (by omega)
    obtain ⟨outside', hlength', houtside'⟩ := ihF hne
    refine ⟨outside', by omega, fun q => ?_⟩
    have hbehind := (Same.of_eq (refl (F q))).append (houtside q)
    rw [← List.append_assoc] at hbehind
    exact hbehind.trans (houtside' q)
  | congr _ hsame ih =>
    obtain ⟨outside, hlength, houtside⟩ := ih hrest
    exact ⟨outside, hlength, fun q => ((hsame q).append (.of_eq rfl)).trans (houtside q)⟩

/-- A statement of given clauses, of which one holds the subquery. -/
theorem fill (slot : Slot) {clause : Document → Slot → Fragment} (h : Hosts r n (clause · slot))
    (hothers : ∀ other ≠ slot, ∀ q q', clause q other = clause q' other) :
    Hosts r n fun q => Layout.fill (clause q) Layout.select := by
  have hparts (parts : List LayoutPart) :
      Hosts r (parts.count (.slot slot) * n) fun q => Layout.fill (clause q) parts := by
    induction parts with
    | nil =>
      rw [List.count_nil, Nat.zero_mul]
      exact .fixed []
    | cons part parts ih =>
      by_cases hpart : part = .slot slot
      · rw [hpart, List.count_cons_self, Nat.succ_mul, Nat.add_comm]
        exact h.append ih
      · rw [List.count_cons_of_ne hpart, ← Nat.zero_add (_ * n)]
        refine Hosts.append ?_ ih
        cases part with
        | word s => exact .fixed (.ofText s)
        | slot other =>
          have hne : other ≠ slot := fun he => hpart (congrArg LayoutPart.slot he)
          exact of_forall_eq fun q => hothers other hne q default
  have hcount : Layout.select.count (.slot slot) = 1 := by cases slot <;> rfl
  have hall := hparts Layout.select
  rwa [hcount, Nat.one_mul] at hall

end Renderer.Hosts

open Renderer

/-! ### Every place hosts its subquery -/

theorem Surroundings.hosts {s : Scope} {n : Nat} {e : Document → Entry} (around : Surroundings)
    (h : Hosts s.renderer n fun q => (e q).render s) :
    Hosts s.renderer n fun q => Junction.renderAll (Branch.renderEach s (around.fill (e q))) := by
  have hall := h.renderAll (around.front.map (Branch.render s)) (around.back.map (Branch.render s))
    around.connective (around.before.map (Entry.render s)) (around.after.map (Entry.render s))
  have hbranches (q : Document) : Branch.renderEach s (around.fill (e q)) =
      around.front.map (Branch.render s) ++
        ⟨around.connective, visible (around.before.map (Entry.render s) ++
          (e q).render s :: around.after.map (Entry.render s))⟩ ::
        around.back.map (Branch.render s) := by
    rw [Branch.renderEach_eq_map, fill, List.map_append, List.map_cons, Branch.render,
      Entry.renderEach_eq_map, List.map_append, List.map_cons]
  simpa only [hbranches] using hall

theorem EntryPlace.hosts (s : Scope) (place : EntryPlace) :
    Hosts s.renderer place.copies fun q => (place.fill q).render s := by
  induction place with
  | inQuery field before after negated =>
    have hall := Hosts.renderField s field (fun key => before.map (Condition.render s key))
      (fun key => after.map (Condition.render s key)) fun key => Hosts.inQuery s key negated
    rw [Nat.mul_one] at hall
    simpa only [fill, copies, Entry.render, Condition.renderEach_eq_map, List.map_append,
      List.map_cons] using hall
  | exist negated => exact Hosts.exist s negated
  | group around inner ih =>
    simp only [fill, Entry.render]
    exact (around.hosts ih).enclosedIfAny

/-- The body of a WHERE clause of which the branches or the soft delete hold the subquery. -/
theorem Renderer.Hosts.besides_body {r : Renderer} {n : Nat} {F : Document → Fragment}
    (h : Hosts r n F) (soft : Option Fragment) :
    Hosts r n fun q => renderBesides (F q) soft := by
  cases soft with
  | none => exact h
  | some soft => exact (h.enclosedIfAny).join_visible (Junction.separator .and) [] [soft]

theorem Renderer.Hosts.besides_soft {r : Renderer} {n : Nat} {F : Document → Fragment}
    (h : Hosts r n F) (body : Fragment) :
    Hosts r n fun q => renderBesides body (some (F q)) :=
  h.join_visible (Junction.separator .and) [body.enclosedIfAny] []

theorem SoftDelete.hosts (s : Scope) (field : String) (negated : Bool) :
    Hosts s.renderer (Name.fields field).length fun q =>
      SoftDelete.render s ⟨field, .inQuery q negated⟩ := by
  have hall := Hosts.renderField s field (fun _ => []) (fun _ => [])
    fun key => Hosts.inQuery s key negated
  rw [Nat.mul_one] at hall
  simpa only [SoftDelete.render, List.nil_append] using hall

/-- A document holds the subquery in each of its places. -/
theorem Place.hosts (r : Renderer) (place : Place) :
    Hosts r place.copies fun q => (place.fill q).render r := by
  simp only [Document.render_eq_fill]
  cases place with
  | filter d around inner =>
    have hbody := (around.hosts (EntryPlace.hosts (d.scope r) inner)).besides_body
      (d.softDelete.map (·.render (d.scope r)))
    refine .fill .filter hbody.renderWhere fun other hother q q' => ?_
    cases other with
    | filter => exact absurd rfl hother
    | _ => rfl
  | softDelete d field negated =>
    have hbody := (SoftDelete.hosts (d.scope r) field negated).besides_soft (d.renderFilter r)
    refine .fill .filter hbody.renderWhere fun other hother q q' => ?_
    cases other with
    | filter => exact absurd rfl hother
    | _ => rfl
  | union d before after all =>
    have hall := (Hosts.union all).framed (r := r)
      ⟨before.flatMap (UnionItem.render r), after.flatMap (UnionItem.render r), fun f => rfl⟩
    refine .fill .unions ?_ fun other hother q q' => ?_
    · have hunions (q : Document) :
          Document.renderClause r ((union d before after all).fill q) .unions =
            before.flatMap (UnionItem.render r) ++ (UnionItem.query q all).render r ++
              after.flatMap (UnionItem.render r) := by
        show UnionItem.renderAll r (before ++ .query q all :: after) = _
        rw [UnionItem.renderAll_eq_flatMap, List.flatMap_append, List.flatMap_cons,
          List.append_assoc]
      simpa only [hunions, copies] using hall
    · cases other with
      | unions => exact absurd rfl hother
      | _ => rfl

/-- So does a document that holds it deeper inside. -/
theorem Place.hosts_fillAll (r : Renderer) (place : Place) (places : List Place) :
    Hosts r ((place :: places).map copies).prod
      fun q => (fillAll (place :: places) q).render r := by
  induction places generalizing place with
  | nil =>
    rw [List.map_singleton, List.prod_singleton]
    exact place.hosts r
  | cons next places ih =>
    rw [List.map_cons, List.prod_cons]
    exact (place.hosts r).subst (ih next)

/-- Rendering is compositional. Whatever parameters are there already, a document is rendered behind
them to the text and the parameters that it has by itself. So a subquery contributes, inside of its
parentheses, exactly the text of its own statement and, at this point, exactly its own parameters,
whatever the documents and the entries around it are: they decide on `outside` alone. -/
theorem Renderer.select_places (r : Renderer) :
    (∀ (d : Document) (before : List Param),
      (d.emit r).run before = ((r.select d).sql, before ++ (r.select d).params)) ∧
    ∀ (place : Place) (places : List Place), ∃ outside : List Fragment,
      outside.length = ((place :: places).map Place.copies).prod + 1 ∧ ∀ q : Document,
        let whole := r.select (Place.fillAll (place :: places) q)
        whole.sql = Text.join ("(" ++ (r.select q).sql ++ ")") (outside.map sql) ∧
          whole.params = (r.select q).params.intercalate (outside.map params) := by
  refine ⟨Document.run_emit r, fun place places => ?_⟩
  have hhosts := Place.hosts_fillAll r place places
  obtain ⟨outside, hlength, houtside⟩ := hhosts.exists_outside (List.cons_ne_nil [] [])
  refine ⟨outside, hlength, fun q => ?_⟩
  obtain ⟨hsql, hparams⟩ := houtside q
  rw [List.intercalate_singleton, List.append_nil] at hsql hparams
  rw [sql_intercalate, sql_enclosed] at hsql
  rw [params_intercalate, params_enclosed] at hparams
  simp only [Renderer.select, Statement.sql_ofFragment, Statement.params_ofFragment]
  exact ⟨hsql, hparams⟩

example :
    (Renderer.select {} (Place.fill (.softDelete { tables := ["t"] } "a|b" true)
      { tables := ["u"] })).sql =
    "SELECT * FROM t WHERE (a NOT IN (SELECT * FROM u) OR b NOT IN (SELECT * FROM u))" := by
  decide +kernel

end SqlSelect
