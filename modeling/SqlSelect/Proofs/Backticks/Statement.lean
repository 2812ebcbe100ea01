import SqlSelect.Proofs.Backticks.Names
import SqlSelect.Render

/-!
# The dialects differ in backticks only

A document is rendered in the dialect with backticks, and its backticks are taken out again.

* `Document.IsTidy`: no text that is written has a backtick, and no name or alias has white space at
  its ends, at any depth;
* `Fragment.unquoted`: a fragment without its backticks. It is made of parts without backticks as the
  fragment is made of its parts;
* `Fragment.IsClear`: a fragment that is empty or has text besides backticks. What is rendered of
  conditions is clear, so that taking out the backticks empties nothing;
* `unquoted_induction`: taking the backticks out of what is rendered is rendering without them, for
  each kind of node;
* `Renderer.unquoted_select`: so it is for statements.
-/

namespace SqlSelect

open Text (notBacktick)

/-! ### Tidy documents -/

mutual

/-- A condition without backticks and with trimmed names. Values may be what they like. -/
inductive Condition.IsTidy : Condition → Prop
  | compare {op : Comparison} {v : Value} : Condition.IsTidy (.compare op v)
  | compareRaw {op : Comparison} {sql : String} :
      Text.IsOver notBacktick sql → Condition.IsTidy (.compareRaw op sql)
  | isNull : Condition.IsTidy .isNull
  | isNotNull : Condition.IsTidy .isNotNull
  | inList {vs : List Value} {negated : Bool} : Condition.IsTidy (.inList vs negated)
  | between {low high : Value} {negated : Bool} : Condition.IsTidy (.between low high negated)
  | exp {sql : String} {binds : List Param} :
      Text.IsOver notBacktick sql → Condition.IsTidy (.exp sql binds)
  | inQuery {query : Document} {negated : Bool} :
      Document.IsTidy query → Condition.IsTidy (.inQuery query negated)

/-- A member of a clause without backticks and with trimmed names. -/
inductive Entry.IsTidy : Entry → Prop
  | field {name : String} {cs : List Condition} :
      Name.IsTidyField name → (∀ c ∈ cs, Condition.IsTidy c) → Entry.IsTidy (.field name cs)
  | raw {sql : String} {binds : List Param} :
      Text.IsOver notBacktick sql → Entry.IsTidy (.raw sql binds)
  | group {bs : List Branch} : (∀ b ∈ bs, ∀ e ∈ b.entries, Entry.IsTidy e) → Entry.IsTidy (.group bs)
  | exist {query : Document} {negated : Bool} :
      Document.IsTidy query → Entry.IsTidy (.exist query negated)

/-- A united statement without backticks and with trimmed names. -/
inductive UnionItem.IsTidy : UnionItem → Prop
  | raw {sql : String} {all : Bool} : Text.IsOver notBacktick sql → UnionItem.IsTidy (.raw sql all)
  | query {query : Document} {all : Bool} :
      Document.IsTidy query → UnionItem.IsTidy (.query query all)

/-- A document without backticks and with trimmed names, at any depth. -/
inductive Document.IsTidy : Document → Prop
  | intro {d : Document} : (∀ t ∈ d.clauseTexts, Text.IsOver notBacktick t) →
      (∀ n ∈ d.clauseNames, Text.trim n = n) →
      (∀ b ∈ d.filter, ∀ e ∈ b.entries, Entry.IsTidy e) →
      (∀ x ∈ d.softDelete, Name.IsTidyField x.field) →
      (∀ x ∈ d.softDelete, Condition.IsTidy x.condition) →
      (∀ u ∈ d.unions, UnionItem.IsTidy u) → Document.IsTidy d

end

/-! ### Fragments -/

/-- The piece without its backticks. -/
def Piece.unquoted : Piece → Piece
  | text s => text (Text.unquoted s)
  | mark v => mark v
  | raw sql binds => raw (Text.unquoted sql) binds

namespace Fragment

/-- The fragment without its backticks. -/
def unquoted (f : Fragment) : Fragment := f.map Piece.unquoted

/-- A fragment that is empty or has text besides backticks. -/
def IsClear (f : Fragment) : Prop := f = [] ∨ Text.unquoted f.sql ≠ ""

variable {f : Fragment} {fs : List Fragment} {s : String}

@[simp] theorem unquoted_nil : unquoted [] = [] := rfl
@[simp] theorem unquoted_append (f g : Fragment) :
    unquoted (f ++ g) = unquoted f ++ unquoted g := List.map_append
@[simp] theorem unquoted_text (s : String) (f : Fragment) :
    unquoted (.text s :: f) = .text (Text.unquoted s) :: unquoted f := rfl
@[simp] theorem unquoted_ofText (s : String) :
    (ofText s).unquoted = ofText (Text.unquoted s) := rfl

@[simp] theorem sql_unquoted (f : Fragment) : f.unquoted.sql = Text.unquoted f.sql := by
  induction f with
  | nil => rfl
  | cons p f ih =>
    have hmark : Text.unquoted "?" = "?" := by decide
    rw [sql_cons, Text.unquoted_append, ← ih]
    cases p with
    | text s => rfl
    | mark v =>
      rw [Piece.sql, hmark]
      rfl
    | raw sql binds => rfl

@[simp] theorem params_unquoted (f : Fragment) : f.unquoted.params = f.params := by
  induction f with
  | nil => rfl
  | cons p f ih =>
    rw [params_cons, ← ih]
    cases p <;> rfl

theorem unquoted_within (before after : String) (f : Fragment) :
    (f.within before after).unquoted =
      f.unquoted.within (Text.unquoted before) (Text.unquoted after) := by
  simp [within]

theorem unquoted_enclosed (f : Fragment) : f.enclosed.unquoted = f.unquoted.enclosed :=
  unquoted_within "(" ")" f

theorem unquoted_join (sep : String) (fs : List Fragment) :
    (join sep fs).unquoted = join (Text.unquoted sep) (fs.map unquoted) := by
  match fs with
  | [] => rfl
  | [_] => rfl
  | _ :: g :: fs =>
    rw [join, unquoted_append, unquoted_text, unquoted_join sep (g :: fs)]
    rfl

theorem unquoted_marks (vs : List Value) : (marks vs).unquoted = marks vs := by
  rw [marks, unquoted_join, List.map_map]
  rfl

theorem unquoted_conjoined (fs : List Fragment) :
    (conjoined fs).unquoted = conjoined (fs.map unquoted) := by
  match fs with
  | [] => rfl
  | [_] => rfl
  | f :: g :: fs =>
    show (join " AND " (f :: g :: fs)).enclosed.unquoted = _
    rw [unquoted_enclosed, unquoted_join]
    rfl

/-! ### Clear fragments -/

theorem IsClear.isEmpty_unquoted (h : f.IsClear) : f.unquoted.isEmpty = f.isEmpty := by
  rw [Bool.eq_iff_iff, isEmpty_iff, isEmpty_iff, sql_unquoted]
  rcases h with rfl | h
  · rfl
  · refine ⟨fun he => absurd he h, fun he => ?_⟩
    rw [he]
    rfl

/-- A fragment with a text in it that has more than backticks. -/
theorem isClear_of_mem (h : .text s ∈ f) (hs : Text.unquoted s ≠ "") : f.IsClear := by
  refine .inr fun he => hs ?_
  induction f with
  | nil => exact absurd h List.not_mem_nil
  | cons p f ih =>
    rw [sql_cons, Text.unquoted_append, String.append_eq_empty_iff] at he
    rcases List.mem_cons.1 h with rfl | h
    · exact he.1
    · exact ih h he.2

theorem isClear_text (hs : Text.unquoted s ≠ "") : IsClear (.text s :: f) :=
  isClear_of_mem List.mem_cons_self hs

theorem isClear_enclosed (f : Fragment) : f.enclosed.IsClear := isClear_text (by decide)

theorem isClear_enclosedIfAny (f : Fragment) : f.enclosedIfAny.IsClear := by
  unfold enclosedIfAny
  split
  · exact .inl rfl
  · exact isClear_enclosed f

/-- Of two or more fragments the separator is seen. -/
theorem isClear_join {sep : String} (hsep : Text.unquoted sep ≠ "") (h : ∀ f ∈ fs, f.IsClear) :
    (join sep fs).IsClear := by
  match fs with
  | [] => exact .inl rfl
  | [f] => exact h f List.mem_cons_self
  | f :: _ :: _ => exact isClear_of_mem (List.mem_append_right _ List.mem_cons_self) hsep

theorem isClear_conjoined (h : ∀ f ∈ fs, f.IsClear) : (conjoined fs).IsClear := by
  match fs with
  | [] => exact .inl rfl
  | [f] => exact h f List.mem_cons_self
  | _ :: _ :: _ => exact isClear_enclosed _

theorem isClear_visible (h : ∀ f ∈ fs, f.IsClear) : ∀ f ∈ visible fs, f.IsClear :=
  fun f hf => h f (List.mem_of_mem_filter hf)

/-- The same fragments of two lists have no text. -/
theorem unquoted_visible (h : ∀ f ∈ fs, f.IsClear) :
    (visible fs).map unquoted = visible (fs.map unquoted) := by
  rw [visible, visible, List.filter_map]
  refine congrArg (List.map unquoted) (List.filter_congr fun f hf => ?_)
  rw [Function.comp_apply, (h f hf).isEmpty_unquoted]

theorem IsClear.unquoted_enclosedIfAny (h : f.IsClear) :
    f.enclosedIfAny.unquoted = f.unquoted.enclosedIfAny := by
  unfold enclosedIfAny
  rw [h.isEmpty_unquoted]
  split
  · rfl
  · exact unquoted_enclosed f

end Fragment

namespace Junction

/-- The junction without backticks in its conditions. -/
def unquoted (j : Junction) : Junction := ⟨j.connective, j.parts.map Fragment.unquoted⟩

theorem unquoted_separator (k : Connective) : Text.unquoted (separator k) = separator k := by
  cases k <;> decide

theorem unquoted_render (j : Junction) : j.render.unquoted = j.unquoted.render := by
  rw [render, Fragment.unquoted_join, unquoted_separator]
  rfl

theorem unquoted_renderRest (js : List Junction) :
    (renderRest js).unquoted = renderRest (js.map unquoted) := by
  induction js with
  | nil => rfl
  | cons j js ih =>
    rw [renderRest, Fragment.unquoted_text, Fragment.unquoted_append, Fragment.unquoted_enclosed,
      unquoted_render, unquoted_separator, ih]
    rfl

theorem unquoted_renderNonempty (js : List Junction) :
    (renderNonempty js).unquoted = renderNonempty (js.map unquoted) := by
  match js with
  | [] => rfl
  | [j] => exact unquoted_render j
  | j :: i :: js =>
    rw [renderNonempty, Fragment.unquoted_append, Fragment.unquoted_enclosed, unquoted_render,
      unquoted_renderRest]
    · rfl
    · simp

/-- A junction has as many conditions without backticks. -/
theorem unquoted_renderAll (js : List Junction) :
    (renderAll js).unquoted = renderAll (js.map unquoted) := by
  rw [renderAll, unquoted_renderNonempty, renderAll, List.filter_map]
  refine congrArg (fun js => renderNonempty (List.map unquoted js)) ?_
  refine List.filter_congr fun j _ => ?_
  simp [unquoted]

theorem isClear_renderAll {js : List Junction} (h : ∀ j ∈ js, ∀ f ∈ j.parts, f.IsClear) :
    (renderAll js).IsClear := by
  have hfilter : ∀ j ∈ js.filter (fun j => !j.parts.isEmpty), ∀ f ∈ j.parts, f.IsClear :=
    fun j hj => h j (List.mem_of_mem_filter hj)
  rw [renderAll]
  generalize js.filter (fun j => !j.parts.isEmpty) = js at hfilter
  rcases js with _ | ⟨j, _ | ⟨_, _⟩⟩
  · exact .inl rfl
  · refine Fragment.isClear_join ?_ (hfilter j List.mem_cons_self)
    cases j.connective <;> decide
  · exact Fragment.isClear_text (s := "(") (by decide)

end Junction

/-! ### What is rendered is clear -/

section Clear

variable (s : Scope)

/-- Behind or before the key there is a space in each case, or there is no key. -/
theorem Condition.isClear_render (key : String) (c : Condition) : (c.render s key).IsClear := by
  have hspace : ∀ {t : String} {f : Fragment}, ' ' ∈ t.toList → Fragment.IsClear (.text t :: f) :=
    fun ht => Fragment.isClear_text (Text.unquoted_ne_empty ht (by decide))
  cases c with
  | compare op v =>
    rw [Condition.render]
    unfold Comparison.render
    split <;> exact hspace (by simp)
  | inList vs negated =>
    rw [Condition.render]
    unfold renderMembers
    split
    · cases negated <;> exact Fragment.isClear_text (by decide)
    · exact hspace (by simp)
  | _ => exact hspace (by simp)

theorem isClear_renderField (field : String) {C : String → List Fragment}
    (h : ∀ key, ∀ f ∈ C key, f.IsClear) : (renderField s field C).IsClear := by
  unfold renderField
  split
  · exact Fragment.isClear_enclosed _
  · exact Fragment.isClear_conjoined (h _)

theorem Entry.isClear_render (e : Entry) : (e.render s).IsClear := by
  cases e with
  | field name cs =>
    rw [Entry.render]
    refine isClear_renderField s name fun key f hf => ?_
    rw [Condition.renderEach_eq_map] at hf
    obtain ⟨c, -, rfl⟩ := List.mem_map.1 hf
    exact Condition.isClear_render s key c
  | raw sql binds => exact Fragment.isClear_enclosed _
  | group bs => exact Fragment.isClear_enclosedIfAny _
  | exist query negated => cases negated <;> exact Fragment.isClear_text (by decide)

theorem Entry.isClear_renderEach (es : List Entry) : ∀ f ∈ Entry.renderEach s es, f.IsClear := by
  rw [Entry.renderEach_eq_map]
  exact List.forall_mem_map.2 fun e _ => Entry.isClear_render s e

theorem Branch.isClear_render (bs : List Branch) :
    (Junction.renderAll (Branch.renderEach s bs)).IsClear := by
  refine Junction.isClear_renderAll ?_
  rw [Branch.renderEach_eq_map]
  refine List.forall_mem_map.2 fun b _ => ?_
  obtain ⟨k, es⟩ := b
  rw [Branch.render]
  exact Fragment.isClear_visible (Entry.isClear_renderEach s es)

theorem SoftDelete.isClear_render (x : SoftDelete) : (x.render s).IsClear := by
  obtain ⟨field, c⟩ := x
  rw [SoftDelete.render]
  exact isClear_renderField s field fun key =>
    List.forall_mem_singleton.2 (Condition.isClear_render s key c)

theorem isClear_renderBesides {body : Fragment} {soft : Option Fragment} (hbody : body.IsClear)
    (hsoft : ∀ f ∈ soft, f.IsClear) : (renderBesides body soft).IsClear := by
  cases soft with
  | none => exact hbody
  | some f =>
    have hand : Text.unquoted (Junction.separator .and) ≠ "" := by decide
    refine Fragment.isClear_join hand (Fragment.isClear_visible ?_)
    exact List.forall_mem_cons.2
      ⟨Fragment.isClear_enclosedIfAny body, List.forall_mem_singleton.2 (hsoft f rfl)⟩

end Clear

/-! ### Rendering without backticks -/

section Unquoted

variable {s : Scope} {r : Renderer}

theorem Comparison.unquoted_sql (op : Comparison) : Text.unquoted op.sql = op.sql := by
  cases op <;> decide

theorem Comparison.unquoted_render (op : Comparison) (key : String) (v : Value) :
    (op.render key v).unquoted = op.render (Text.unquoted key) v := by
  unfold Comparison.render
  split
  · simp (disch := decide) [Text.unquoted_of_isOver]
  · simp (disch := decide) [Text.unquoted_of_isOver]
  · simp (disch := decide) [Text.unquoted_of_isOver, unquoted_sql]
    rfl

theorem unquoted_negation (negated : Bool) :
    Text.unquoted (negation negated) = negation negated := by
  cases negated <;> decide

theorem unquoted_unionKeyword (all : Bool) :
    Text.unquoted (unionKeyword all) = unionKeyword all := by
  cases all <;> decide

theorem unquoted_renderMembers (key : String) (vs : List Value) (negated : Bool) :
    (renderMembers key vs negated).unquoted = renderMembers (Text.unquoted key) vs negated := by
  unfold renderMembers
  split
  · cases negated <;> rfl
  · rw [Fragment.unquoted_within, Fragment.unquoted_marks]
    simp (disch := decide) [unquoted_negation, Text.unquoted_of_isOver]

/-- The names of a tidy field text are written without their backticks. -/
theorem unquoted_renderField (hs : s.Quotes) {field : String} (hfield : Name.IsTidyField field)
    {C D : String → List Fragment}
    (h : ∀ key, (C key).map Fragment.unquoted = D (Text.unquoted key)) :
    (renderField s field C).unquoted = renderField s.unquoted field D := by
  have hkey : ∀ n ∈ Name.fields field, Text.unquoted (s.key n) = s.unquoted.key n := fun n hn =>
    Scope.unquoted_key hs
      ⟨Name.isOver_of_mem_fields hfield.notBacktick hn, hfield.trimmed n hn⟩
  cases hf : Name.fanOut? field with
  | none =>
    have hmem : field ∈ Name.fields field := by simp [Name.fields_of_none hf]
    simp only [renderField, hf]
    rw [Fragment.unquoted_conjoined, h, hkey field hmem]
  | some fan =>
    obtain ⟨k, names⟩ := fan
    rw [Name.fields_of_fanOut? hf] at hkey
    simp only [renderField, hf]
    rw [Fragment.unquoted_enclosed, Junction.unquoted_render, Junction.unquoted, List.map_map]
    refine congrArg (fun fs => (Junction.mk k fs).render.enclosed) (List.map_congr_left ?_)
    intro n hn
    rw [Function.comp_apply, Fragment.unquoted_conjoined, h, hkey n hn]

theorem unquoted_renderBesides {body : Fragment} {soft : Option Fragment} (hbody : body.IsClear)
    (hsoft : ∀ f ∈ soft, f.IsClear) :
    (renderBesides body soft).unquoted =
      renderBesides body.unquoted (soft.map Fragment.unquoted) := by
  cases soft with
  | none => rfl
  | some f =>
    have hparts : ∀ g ∈ [body.enclosedIfAny, f], g.IsClear := List.forall_mem_cons.2
      ⟨Fragment.isClear_enclosedIfAny body, List.forall_mem_singleton.2 (hsoft f rfl)⟩
    rw [renderBesides, Junction.unquoted_render, Junction.unquoted,
      Fragment.unquoted_visible hparts, List.map_cons, hbody.unquoted_enclosedIfAny]
    rfl

theorem unquoted_renderWhere {body : Fragment} (h : body.IsClear) :
    (renderWhere body).unquoted = renderWhere body.unquoted := by
  unfold renderWhere
  rw [h.isEmpty_unquoted]
  split
  · rfl
  · rfl

/-- The words of a statement have no backticks. -/
theorem Layout.unquoted_fill (clause : Slot → Fragment) :
    (fill clause select).unquoted = fill (fun slot => (clause slot).unquoted) select := by
  have hpart : ∀ part ∈ select, (fillPart clause part).unquoted =
      fillPart (fun slot => (clause slot).unquoted) part := by
    intro part hpart
    cases part with
    | word w =>
      have hword : ∀ w, LayoutPart.word w ∈ select → Text.unquoted w = w := by
        intro w hw
        have hcases : w = "SELECT" ∨ w = " " ∨ w = " FROM " := by simpa [select] using hw
        rcases hcases with rfl | rfl | rfl <;> decide
      exact congrArg Fragment.ofText (hword w hpart)
    | slot slot => rfl
  rw [fill, Fragment.unquoted, List.map_flatMap, fill]
  exact List.flatMap_congr hpart

/-- The clauses of conditions and of unions, for a document whose nodes are rendered so. -/
theorem Document.unquoted_render_of_clauses {d : Document} (hr : r.Quotes)
    (htexts : ∀ t ∈ d.clauseTexts, Text.IsOver notBacktick t)
    (hnames : ∀ n ∈ d.clauseNames, Text.trim n = n)
    (hfilter : (d.renderClause r .filter).unquoted = d.renderClause r.unquoted .filter)
    (hunions : (d.renderClause r .unions).unquoted = d.renderClause r.unquoted .unions) :
    (d.render r).unquoted = d.render r.unquoted := by
  rw [render_eq_fill, render_eq_fill, Layout.unquoted_fill]
  refine congrArg (fun clause => Layout.fill clause Layout.select) (funext fun slot => ?_)
  cases slot with
  | filter => exact hfilter
  | unions => exact hunions
  | _ => exact congrArg Fragment.ofText (unquoted_clauseText hr htexts hnames _)

end Unquoted

/-- Taking the backticks out of what is rendered is rendering without them. -/
theorem unquoted_induction : DocumentInduction
    (fun c => c.IsTidy → ∀ s : Scope, s.Quotes → ∀ key,
      (c.render s key).unquoted = c.render s.unquoted (Text.unquoted key))
    (fun e => e.IsTidy → ∀ s : Scope, s.Quotes → (e.render s).unquoted = e.render s.unquoted)
    (fun b => (∀ e ∈ b.entries, e.IsTidy) → ∀ s : Scope, s.Quotes →
      (b.render s).unquoted = b.render s.unquoted)
    (fun u => u.IsTidy → ∀ r : Renderer, r.Quotes → (u.render r).unquoted = u.render r.unquoted)
    (fun d => d.IsTidy → ∀ r : Renderer, r.Quotes →
      (d.render r).unquoted = d.render r.unquoted) where
  compare op v := by
    rintro - s - key
    rw [Condition.render, Condition.render]
    exact op.unquoted_render key v
  compareRaw op sql := by
    rintro ⟨⟩ s - key
    next hsql =>
      rw [Condition.render, Condition.render, Fragment.unquoted_ofText]
      simp (disch := decide) [Text.unquoted_of_isOver hsql, Text.unquoted_of_isOver, op.unquoted_sql]
  isNull := by
    rintro - s - key
    rw [Condition.render, Condition.render, Fragment.unquoted_ofText]
    simp (disch := decide) [Text.unquoted_of_isOver]
  isNotNull := by
    rintro - s - key
    rw [Condition.render, Condition.render, Fragment.unquoted_ofText]
    simp (disch := decide) [Text.unquoted_of_isOver]
  inList vs negated := by
    rintro - s - key
    rw [Condition.render, Condition.render]
    exact unquoted_renderMembers key vs negated
  between low high negated := by
    rintro - s - key
    rw [Condition.render, Condition.render, Fragment.unquoted_text]
    simp (disch := decide) only [Text.unquoted_append, unquoted_negation, Text.unquoted_of_isOver]
    rfl
  exp sql binds := by
    rintro ⟨⟩ s - key
    next hsql =>
      have hraw : Fragment.unquoted [.raw sql binds] = [.raw sql binds] :=
        congrArg (fun sql => [Piece.raw sql binds]) (Text.unquoted_of_isOver hsql)
      rw [Condition.render, Condition.render, Fragment.unquoted_within, hraw]
      simp (disch := decide) [Text.unquoted_of_isOver]
  inQuery query negated ih := by
    rintro ⟨⟩ s hs key
    next hquery =>
      rw [Condition.render, Condition.render, Fragment.unquoted_within,
        ih hquery s.renderer hs.renderer]
      simp (disch := decide) [unquoted_negation, Text.unquoted_of_isOver, Scope.unquoted]
  field name cs ih := by
    rintro ⟨⟩ s hs
    next hname hcs =>
      rw [Entry.render, Entry.render]
      refine unquoted_renderField hs hname fun key => ?_
      rw [Condition.renderEach_eq_map, Condition.renderEach_eq_map, List.map_map]
      exact List.map_congr_left fun c hc => ih c hc (hcs c hc) s hs key
  raw sql binds := by
    rintro ⟨⟩ s -
    next hsql =>
      rw [Entry.render, Entry.render, Fragment.unquoted_enclosed]
      exact congrArg (fun sql => Fragment.enclosed [.raw sql binds]) (Text.unquoted_of_isOver hsql)
  group bs ih := by
    rintro ⟨⟩ s hs
    next hbs =>
      rw [Entry.render, Entry.render, (Branch.isClear_render s bs).unquoted_enclosedIfAny,
        Junction.unquoted_renderAll, Branch.renderEach_eq_map, Branch.renderEach_eq_map,
        List.map_map]
      refine congrArg (fun js => (Junction.renderAll js).enclosedIfAny) ?_
      exact List.map_congr_left fun b hb => ih b hb (hbs b hb) s hs
  exist query negated ih := by
    rintro ⟨⟩ s hs
    next hquery =>
      rw [Entry.render, Entry.render, Fragment.unquoted_within, ih hquery s.renderer hs.renderer]
      simp (disch := decide) [unquoted_negation, Text.unquoted_of_isOver, Scope.unquoted]
  branch k es ih := by
    rintro hes s hs
    rw [Branch.render, Branch.render, Junction.unquoted,
      Fragment.unquoted_visible (Entry.isClear_renderEach s es), Entry.renderEach_eq_map,
      Entry.renderEach_eq_map, List.map_map]
    refine congrArg (fun fs => Junction.mk k (Fragment.visible fs)) ?_
    exact List.map_congr_left fun e he => ih e he (hes e he) s hs
  unionRaw sql all := by
    rintro ⟨⟩ r hr
    next hsql =>
      have hname : Text.IsOver notBacktick (TableName.expand r.tablePrefix sql) :=
        TableName.isOver_expand (p := notBacktick) (fun _ => Text.notBacktick_toLower)
          hr.tablePrefix.notBacktick hsql
      rw [UnionItem.render, UnionItem.render, Fragment.unquoted_ofText]
      simp (disch := decide) [unquoted_unionKeyword, Text.unquoted_of_isOver hname,
        Text.unquoted_of_isOver, Renderer.unquoted]
  unionQuery query all ih := by
    rintro ⟨⟩ r hr
    next hquery =>
      rw [UnionItem.render, UnionItem.render, Fragment.unquoted_within, ih hquery r hr]
      simp (disch := decide) [unquoted_unionKeyword, Text.unquoted_of_isOver]
  document d ihfilter ihsoft ihunions := by
    rintro ⟨htexts, hnames, hfilter, hfields, hsoft, hunions⟩ r hr
    have hs := Document.quotes_scope hr htexts hnames
    have hscope : (d.scope r).unquoted = d.scope r.unquoted := rfl
    refine Document.unquoted_render_of_clauses hr htexts hnames ?_ ?_
    · have hbody : (d.renderFilter r).unquoted = d.renderFilter r.unquoted := by
        rw [Document.renderFilter, Document.renderFilter, Junction.unquoted_renderAll,
          Branch.renderEach_eq_map, Branch.renderEach_eq_map, List.map_map]
        exact congrArg Junction.renderAll
          (List.map_congr_left fun b hb => ihfilter b hb (hfilter b hb) _ hs)
      have hclear : ∀ f ∈ d.softDelete.map (·.render (d.scope r)), f.IsClear := by
        intro f hf
        obtain ⟨x, -, rfl⟩ := Option.mem_map.1 hf
        exact SoftDelete.isClear_render (d.scope r) x
      have hbodyClear : (d.renderFilter r).IsClear := Branch.isClear_render (d.scope r) d.filter
      rw [Document.renderClause, Document.renderClause,
        unquoted_renderWhere (isClear_renderBesides hbodyClear hclear),
        unquoted_renderBesides hbodyClear hclear, hbody, Option.map_map]
      refine congrArg (fun soft => renderWhere (renderBesides _ soft)) ?_
      refine Option.map_congr fun x hx => ?_
      have hcondition := ihsoft x hx (hsoft x hx) (d.scope r) hs
      obtain ⟨field, c⟩ := x
      rw [Function.comp_apply, SoftDelete.render, SoftDelete.render]
      exact unquoted_renderField hs (hfields _ hx) fun key =>
        congrArg (fun f => [f]) (hcondition key)
    · rw [Document.renderClause, Document.renderClause, UnionItem.renderAll_eq_flatMap,
        UnionItem.renderAll_eq_flatMap, Fragment.unquoted, List.map_flatMap]
      exact List.flatMap_congr fun u hu => ihunions u hu (hunions u hu) r hr

/-- The dialects differ in backticks only. A document without backticks and with trimmed names and
prefix is written in the quoting dialect as in the other, but for the backticks, and with the same
parameters. -/
theorem Renderer.unquoted_select {pre : String} (hpre : Name.IsTidy pre) {d : Document}
    (hd : d.IsTidy) :
    let quoting : Renderer := ⟨.mysql, pre⟩
    let plain : Renderer := ⟨.generic, pre⟩
    Text.unquoted (quoting.select d).sql = (plain.select d).sql ∧
      (quoting.select d).params = (plain.select d).params := by
  intro quoting plain
  have hquotes : quoting.Quotes := ⟨rfl, hpre⟩
  have hrender : (d.render quoting).unquoted = d.render plain :=
    unquoted_induction.ofDocument d hd quoting hquotes
  simp only [Renderer.select, Statement.sql_ofFragment, Statement.params_ofFragment]
  rw [← hrender, Fragment.sql_unquoted, Fragment.params_unquoted]
  exact ⟨rfl, rfl⟩

/-- Tables with and without an alias, one of several words, a join, a star, a number and an
expression as fields, names that stand for several fields, and subqueries in each place. -/
def Document.backtickSample : Document :=
  { tables := ["__USER__", "(SELECT 1) x"]
    aliases := .ofList [("p_user", "u")]
    fields := .items [.column "p_user.*", .aliased "count(1)" "n", .column "12"]
    joins := [⟨"__LOG__", .left, [.eq "p_user.id" "p_log.by"]⟩]
    filter :=
      [⟨.and, [.field "p_user.a| b" [.compare .eq (.text "`"),
        .inQuery { tables := ["__OLD__"], filter := [⟨.or, [.field "c" [.isNull]]⟩] } true]]⟩,
       ⟨.xor, [.group [⟨.or, [.raw "x = ?" [.positional (.int 2)]]⟩]]⟩]
    group := some " p_user.a ,b"
    order := [.field "p_user.a" (some .descending)]
    limit := some ⟨some 5, 10⟩
    unions := [.query { tables := ["v"] } false]
    softDelete := some ⟨"p_user.gone", .isNull⟩ }

theorem Document.isTidy_backtickSample : backtickSample.IsTidy := by
  have hold : IsTidy { tables := ["__OLD__"], filter := [⟨.or, [.field "c" [.isNull]]⟩] } := by
    refine .intro (by decide) (by decide) ?_ (by simp) (by simp) (by simp)
    simp only [List.forall_mem_singleton]
    exact .field ⟨by decide, by decide⟩ (List.forall_mem_singleton.2 .isNull)
  have hunited : IsTidy { tables := ["v"] } :=
    .intro (by decide) (by decide) (by simp) (by simp) (by simp) (by simp)
  refine .intro (by decide) (by decide) ?_ ?_ ?_ ?_
  · simp only [backtickSample, List.forall_mem_cons, List.not_mem_nil, false_imp_iff, implies_true,
      and_true]
    refine ⟨.field ⟨by decide, by decide⟩ ?_, .group ?_⟩
    · exact List.forall_mem_cons.2 ⟨.compare, List.forall_mem_singleton.2 (.inQuery hold)⟩
    · simp only [List.forall_mem_singleton]
      exact .raw (by decide)
  · rintro x ⟨⟩
    exact ⟨by decide, by decide⟩
  · rintro x ⟨⟩
    exact .isNull
  · exact List.forall_mem_singleton.2 (.query hunited)

/-- The statement above in both dialects. -/
theorem Renderer.unquoted_select_backtickSample :
    let quoting : Renderer := ⟨.mysql, "p_"⟩
    let plain : Renderer := ⟨.generic, "p_"⟩
    Name.IsTidy "p_" ∧ Document.backtickSample.IsTidy ∧
      (plain.select Document.backtickSample).sql =
        "SELECT u.*,count(1) AS n,12 FROM p_user u,(SELECT 1) x LEFT JOIN p_log ON u.id=p_log.by" ++
        " WHERE ((((u.a = ? AND u.a NOT IN (SELECT * FROM p_old WHERE c IS NULL)) OR " ++
        "(b = ? AND b NOT IN (SELECT * FROM p_old WHERE c IS NULL)))) XOR (((x = ?)))) AND " ++
        "u.gone IS NULL GROUP BY u.a,b UNION (SELECT * FROM v) ORDER BY u.a DESC LIMIT 5,10" ∧
      Text.unquoted (quoting.select Document.backtickSample).sql =
        (plain.select Document.backtickSample).sql ∧
      (quoting.select Document.backtickSample).params =
        (plain.select Document.backtickSample).params := by
  intro quoting plain
  have hpre : Name.IsTidy "p_" := by decide
  exact ⟨hpre, Document.isTidy_backtickSample, by decide +kernel,
    Renderer.unquoted_select hpre Document.isTidy_backtickSample⟩

end SqlSelect
