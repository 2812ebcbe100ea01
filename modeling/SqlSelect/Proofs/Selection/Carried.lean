import SqlSelect.Proofs.Reading.Names
import SqlSelect.Proofs.Selection.Key

/-!
# A value that is demanded stands in the statement

* `Name.isOnlySigns`: a field text of signs and nothing else, which stands for no field
  (`Name.fields_eq_nil_iff`);
* `Fragment.infix_join`, `Document.infix_render`: an entry stands in the statement as it is rendered
  by itself, pieces and all;
* `Entry.params_render_field`, `Entry.mark_mem_render_field`: each field that the text stands for
  has its own mark and its own parameter for the value;
* `Draft.carries_of_require`: what becomes of a field and a value that are accepted.
-/

namespace SqlSelect

/-! ### The fields of a field text -/

namespace Chars

/-- Between separators and nothing else there is nothing. -/
theorem forall_mem_splitWhere_eq_nil_iff (p : Char → Bool) (cs : List Char) :
    (∀ w ∈ splitWhere p cs, w = []) ↔ ∀ c ∈ cs, p c = true := by
  induction cs with
  | nil => simp [splitWhere]
  | cons c cs ih =>
    rw [splitWhere, List.forall_mem_cons]
    split
    · next hc => simp [hc, ih]
    · next hc =>
      have hne := splitWhere_ne_nil p cs
      cases hs : splitWhere p cs with
      | nil => exact absurd hs hne
      | cons w ws => simp [hc]

end Chars

theorem Text.has_of_forall {sep : Char} {s : String} (hs : s ≠ "")
    (h : ∀ c ∈ s.toList, c = sep) : Text.has s sep = true := by
  obtain ⟨c, hc⟩ := List.exists_mem_of_ne_nil s.toList (by simpa using hs)
  have hmem : sep ∈ s.toList := h c hc ▸ hc
  simpa [Text.has] using hmem

/-- A list has no items if there is nothing between its separators. -/
theorem Text.items_eq_nil_iff {sep : Char} {s : String}
    (h : ∀ c ∈ s.toList, Chars.isWhiteSpace c = false) :
    Text.items sep s = [] ↔ ∀ c ∈ s.toList, c = sep := by
  have hpieces : Text.items sep s = [] ↔ ∀ w ∈ Chars.splitOn sep s.toList, w = [] := by
    rw [Text.items, Text.splitOn, List.map_map, List.filter_eq_nil_iff, List.forall_mem_map]
    refine forall₂_congr fun w hw => ?_
    -- a piece of a text without white space is trimmed already
    have htrim : Chars.trim w = w :=
      Chars.trim_of_forall fun c hc => h c (Chars.mem_of_mem_splitWhere hw hc)
    simp [Text.trim, htrim]
  rw [hpieces, Chars.splitOn, Chars.forall_mem_splitWhere_eq_nil_iff]
  simp

namespace Name

/-- Is there nothing in the field text but one sign for several fields, once or more often? -/
def isOnlySigns (field : String) : Bool :=
  field != "" && (field.toList.all (· == '|') || field.toList.all (· == '&'))

/-- A text that is no expression has no white space. -/
theorem not_isWhiteSpace_of_not_isExpression {field : String} (h : isExpression field = false)
    {c : Char} (hc : c ∈ field.toList) : Chars.isWhiteSpace c = false := by
  have hchar := List.any_eq_false.1 h c hc
  simp only [isExpressionChar, Bool.or_eq_true, not_or, Bool.not_eq_true] at hchar
  exact hchar.2

theorem trim_of_not_isExpression {field : String} (h : isExpression field = false) :
    Text.trim field = field := by
  rw [Text.trim, Chars.trim_of_forall fun _ => not_isWhiteSpace_of_not_isExpression h,
    String.ofList_toList]

/-- Such texts, and no others, stand for no field. -/
theorem fields_eq_nil_iff {field : String} (h : isExpression field = false) :
    fields field = [] ↔ isOnlySigns field = true := by
  have hspace : ∀ c ∈ field.toList, Chars.isWhiteSpace c = false :=
    fun _ => not_isWhiteSpace_of_not_isExpression h
  by_cases hempty : field = ""
  · subst hempty
    decide
  have hsigns : isOnlySigns field = true ↔
      (∀ c ∈ field.toList, c = '|') ∨ ∀ c ∈ field.toList, c = '&' := by
    simp [isOnlySigns, hempty]
  rw [hsigns]
  by_cases hbar : Text.has field '|' = true
  · have hfan : fanOut? field = some (.or, Text.items '|' field) := by
      simp [fanOut?, fanSign?, hbar]
    have hamp : ¬∀ c ∈ field.toList, c = '&' := fun h => by
      have hmem : '|' ∈ field.toList := by simpa [Text.has] using hbar
      exact absurd (h _ hmem) (by decide)
    rw [fields_of_fanOut? hfan, Text.items_eq_nil_iff hspace]
    exact (or_iff_left hamp).symm
  · have hnobar := mt (Text.has_of_forall hempty) hbar
    by_cases hamp : Text.has field '&' = true
    · have hfan : fanOut? field = some (.and, Text.items '&' field) := by
        simp [fanOut?, fanSign?, hbar, hamp]
      rw [fields_of_fanOut? hfan, Text.items_eq_nil_iff hspace]
      exact (or_iff_right hnobar).symm
    · have hfan : fanOut? field = none := by simp [fanOut?, fanSign?, hbar, hamp]
      rw [fields_of_none hfan]
      exact iff_of_false (List.cons_ne_nil _ _)
        (not_or.2 ⟨hnobar, mt (Text.has_of_forall hempty) hamp⟩)

end Name

/-! ### An entry in the statement -/

namespace Fragment

variable {f g : Fragment} {fs : List Fragment}

theorem infix_join {sep : String} (h : f ∈ fs) : f <:+: join sep fs := by
  induction fs with
  | nil => exact absurd h List.not_mem_nil
  | cons g gs ih =>
    cases gs with
    | nil =>
      rw [List.mem_singleton.1 h]
      exact List.infix_refl g
    | cons g' gs =>
      rw [join]
      rcases List.mem_cons.1 h with rfl | h
      · exact (List.prefix_append f _).isInfix
      · have htail := (ih h).trans (List.suffix_cons (.text sep) _).isInfix
        exact htail.trans (List.suffix_append g _).isInfix

theorem infix_within (before after : String) (f : Fragment) : f <:+: within before after f :=
  ⟨[.text before], [.text after], by simp [within]⟩

theorem infix_conjoined (h : f ∈ fs) : f <:+: conjoined fs := by
  match fs with
  | [] => exact absurd h List.not_mem_nil
  | [g] =>
    rw [List.mem_singleton.1 h]
    exact List.infix_refl g
  | g :: g' :: gs => exact (infix_join h).trans (infix_within _ _ _)

theorem infix_enclosedIfAny (hf : f.sql ≠ "") : f <:+: f.enclosedIfAny := by
  rw [enclosedIfAny, if_neg (by simpa using hf)]
  exact infix_within _ _ f

/-- Text that stands in a part stands in the whole. -/
theorem sql_ne_empty_of_infix (h : f <:+: g) (hf : f.sql ≠ "") : g.sql ≠ "" := by
  obtain ⟨before, after, rfl⟩ := h
  intro he
  rw [sql_append, sql_append, String.append_eq_empty_iff, String.append_eq_empty_iff] at he
  exact hf he.1.2

theorem mem_visible (hf : f.sql ≠ "") (h : f ∈ fs) : f ∈ visible fs :=
  List.mem_filter.2 ⟨h, by simpa [Bool.eq_false_iff] using hf⟩

theorem params_join (sep : String) (fs : List Fragment) :
    (join sep fs).params = fs.flatMap params := by
  match fs with
  | [] => rfl
  | [f] => simp [join]
  | f :: g :: fs =>
    rw [join, params_append, params_cons, params_join sep (g :: fs)]
    rfl

theorem params_within (before after : String) (f : Fragment) :
    (within before after f).params = f.params := by
  simp [within, Piece.params]

theorem params_conjoined (fs : List Fragment) : (conjoined fs).params = fs.flatMap params := by
  unfold conjoined
  split
  · rfl
  · simp
  · rw [enclosed, params_within, params_join]

end Fragment

namespace Junction

variable {f : Fragment} {j : Junction} {js : List Junction}

theorem infix_render (hf : f ∈ j.parts) : f <:+: j.render := Fragment.infix_join hf

theorem infix_renderRest (hj : j ∈ js) : j.render <:+: renderRest js := by
  induction js with
  | nil => exact absurd hj List.not_mem_nil
  | cons i js ih =>
    rw [renderRest]
    rcases List.mem_cons.1 hj with rfl | hj
    · have hhead := (Fragment.infix_within "(" ")" j.render).trans
        (List.prefix_append _ (renderRest js)).isInfix
      exact hhead.trans (List.suffix_cons _ _).isInfix
    · have htail := (ih hj).trans (List.suffix_append i.render.enclosed _).isInfix
      exact htail.trans (List.suffix_cons _ _).isInfix

theorem infix_renderNonempty (hj : j ∈ js) : j.render <:+: renderNonempty js := by
  match js with
  | [] => exact absurd hj List.not_mem_nil
  | [i] =>
    rw [List.mem_singleton.1 hj]
    exact List.infix_refl _
  | i :: i' :: js =>
    have hrest : renderNonempty (i :: i' :: js) = i.render.enclosed ++ renderRest (i' :: js) := rfl
    rw [hrest]
    rcases List.mem_cons.1 hj with rfl | hj
    · exact (Fragment.infix_within "(" ")" j.render).trans (List.prefix_append _ _).isInfix
    · exact (infix_renderRest hj).trans (List.suffix_append _ _).isInfix

/-- A part of a junction stands in the condition that the junctions make. -/
theorem infix_renderAll (hj : j ∈ js) (hf : f ∈ j.parts) : f <:+: renderAll js := by
  have hmem : j ∈ js.filter fun j => !j.parts.isEmpty :=
    List.mem_filter.2 ⟨hj, by simpa using List.ne_nil_of_mem hf⟩
  exact (infix_render hf).trans (infix_renderNonempty hmem)

end Junction

theorem infix_renderBesides {f body : Fragment} (hf : f.sql ≠ "") (h : f <:+: body)
    (soft : Option Fragment) : f <:+: renderBesides body soft := by
  cases soft with
  | none => exact h
  | some soft =>
    have hbody : body.sql ≠ "" := Fragment.sql_ne_empty_of_infix h hf
    have henclosed := h.trans (Fragment.infix_enclosedIfAny hbody)
    have hmem := Fragment.mem_visible (Fragment.sql_ne_empty_of_infix henclosed hf)
      (List.mem_cons_self (a := body.enclosedIfAny) (l := [soft]))
    exact henclosed.trans (Fragment.infix_join hmem)

theorem infix_renderWhere {f body : Fragment} (hf : f.sql ≠ "") (h : f <:+: body) :
    f <:+: renderWhere body := by
  have hbody : body.sql ≠ "" := Fragment.sql_ne_empty_of_infix h hf
  rw [renderWhere, if_neg (by simpa using hbody)]
  exact h.trans (List.suffix_cons _ _).isInfix

/-- An entry with any text stands in the statement. -/
theorem Document.infix_render {r : Renderer} {d : Document} {k : Connective} {e : Entry}
    (he : e ∈ Filter.entries k d.filter) (hsql : (e.render (d.scope r)).sql ≠ "") :
    e.render (d.scope r) <:+: d.render r := by
  have hbranch : ⟨k, Filter.entries k d.filter⟩ ∈ d.filter := by
    have hmem : ⟨k, Filter.entries k d.filter⟩ ∈ Filter.before k d.filter ++
        ⟨k, Filter.entries k d.filter⟩ :: Filter.behind k d.filter :=
      List.mem_append_right _ List.mem_cons_self
    rwa [← Filter.eq_of_mem_entries he] at hmem
  have hfilter : e.render (d.scope r) <:+: d.renderFilter r := by
    rw [renderFilter, Branch.renderEach_eq_map]
    refine Junction.infix_renderAll (List.mem_map_of_mem hbranch) ?_
    rw [Branch.render, Entry.renderEach_eq_map]
    exact Fragment.mem_visible hsql (List.mem_map_of_mem he)
  obtain ⟨before, after, hrender⟩ := d.exists_render_filter r
  rw [hrender]
  have hclause : e.render (d.scope r) <:+: d.renderClause r .filter :=
    infix_renderWhere hsql (infix_renderBesides hsql hfilter _)
  exact (hclause.trans (List.prefix_append _ after).isInfix).trans
    (List.suffix_append before _).isInfix

/-! ### What an entry carries -/

/-- The parameters of a condition do not depend on how its field is written. -/
theorem Condition.params_render (s : Scope) (key other : String) (c : Condition) :
    (c.render s key).params = (c.render s other).params := by
  cases c with
  | compare op v => cases op <;> cases v <;> rfl
  | inList vs negated =>
    rw [Condition.render, Condition.render, renderMembers, renderMembers]
    split
    · rfl
    · rw [Fragment.params_within, Fragment.params_within]
  | exp sql binds =>
    rw [Condition.render, Condition.render, Fragment.params_within, Fragment.params_within]
  | inQuery query negated =>
    rw [Condition.render, Condition.render, Fragment.params_within, Fragment.params_within]
  | _ => rfl

/-- Equality with a value other than null has a mark for it. -/
theorem Condition.render_eq (s : Scope) (key : String) {v : Value} (hv : v ≠ .null) :
    (Condition.eq v).render s key = [.text (key ++ " " ++ Comparison.eq.sql ++ " "), .mark v] := by
  cases v with
  | null => exact absurd rfl hv
  | _ => rfl

theorem Fragment.mem_toList_sql {f : Fragment} {p : Piece} (hp : p ∈ f) {c : Char}
    (hc : c ∈ p.sql.toList) : c ∈ f.sql.toList := by
  induction f with
  | nil => exact absurd hp List.not_mem_nil
  | cons q f ih =>
    rw [Fragment.sql_cons, String.toList_append, List.mem_append]
    rcases List.mem_cons.1 hp with rfl | hp
    · exact .inl hc
    · exact .inr (ih hp)

namespace Entry

variable {s : Scope} {field : String} {cs : List Condition} {v : Value}

/-- The parameters of all conditions on a field. -/
def conditionParams (s : Scope) (cs : List Condition) : List Param :=
  cs.flatMap fun c => (c.render s "").params

theorem params_renderEach (s : Scope) (key : String) (cs : List Condition) :
    (Fragment.conjoined (Condition.renderEach s key cs)).params = conditionParams s cs := by
  rw [Fragment.params_conjoined, Condition.renderEach_eq_map, List.flatMap_map, conditionParams]
  congr 1
  funext c
  exact c.params_render s key ""

/-- The conditions on a field text are written once for each field that it stands for. -/
theorem params_render_field (s : Scope) (field : String) (cs : List Condition) :
    (Entry.render s (.field field cs)).params =
      (List.replicate (Name.fields field).length (conditionParams s cs)).flatten := by
  rw [Entry.render, renderField]
  split
  · next k names hfan =>
    rw [Name.fields_of_fanOut? hfan, Fragment.enclosed, Fragment.params_within, Junction.render,
      Fragment.params_join, List.flatMap_map]
    simp only [params_renderEach]
    rw [← List.map_const', List.flatMap_def]
  · next hfan =>
    rw [Name.fields_of_none hfan, params_renderEach]
    simp

/-- Each field that the text stands for has its mark for the value. -/
theorem mark_mem_render_field (hv : v ≠ .null) (hcs : .eq v ∈ cs)
    (hfields : Name.fields field ≠ []) : .mark v ∈ Entry.render s (.field field cs) := by
  have hconditions : ∀ key, .mark v ∈ Fragment.conjoined (Condition.renderEach s key cs) := by
    intro key
    have hmem : (Condition.eq v).render s key ∈ Condition.renderEach s key cs := by
      rw [Condition.renderEach_eq_map]
      exact List.mem_map_of_mem hcs
    refine (Fragment.infix_conjoined hmem).subset ?_
    rw [Condition.render_eq s key hv]
    simp
  rw [Entry.render, renderField]
  split
  · next k names hfan =>
    rw [Name.fields_of_fanOut? hfan] at hfields
    obtain ⟨n, hn⟩ := List.exists_mem_of_ne_nil names hfields
    have hpart := Junction.infix_render (j := ⟨k, names.map fun n =>
      Fragment.conjoined (Condition.renderEach s (s.key n) cs)⟩) (List.mem_map_of_mem hn)
    exact (hpart.trans (Fragment.infix_within _ _ _)).subset (hconditions (s.key n))
  · exact hconditions (s.key field)

/-- A text that is not made of signs alone stands for a field, and there is a mark in its entry. -/
theorem mem_sql_render_field (h : Name.isExpression field = false)
    (hsigns : Name.isOnlySigns field = false) (hv : v ≠ .null) (hcs : .eq v ∈ cs) :
    Name.fields field ≠ [] ∧ '?' ∈ (Entry.render s (.field field cs)).sql.toList := by
  have hfields : Name.fields field ≠ [] := fun hnil => by
    rw [(Name.fields_eq_nil_iff h).1 hnil] at hsigns
    cases hsigns
  have hquestion : '?' ∈ (Piece.mark v).sql.toList := by
    rw [Piece.sql]
    decide
  exact ⟨hfields, Fragment.mem_toList_sql (mark_mem_render_field hv hcs hfields) hquestion⟩

/-- Without a field to stand for there is nothing between the parentheses. -/
theorem sql_render_field_of_isOnlySigns (h : Name.isExpression field = false)
    (hsigns : Name.isOnlySigns field = true) :
    Name.fields field = [] ∧ (Entry.render s (.field field cs)).sql = "()" := by
  have hfields := (Name.fields_eq_nil_iff h).2 hsigns
  refine ⟨hfields, ?_⟩
  rw [Entry.render, renderField]
  split
  · next k names hfan =>
    rw [Name.fields_of_fanOut? hfan] at hfields
    rw [hfields]
    rfl
  · next hfan =>
    rw [Name.fields_of_none hfan] at hfields
    exact absurd hfields (List.cons_ne_nil _ _)

theorem sql_render_field_ne_empty (h : Name.isExpression field = false) (hv : v ≠ .null)
    (hcs : .eq v ∈ cs) : (Entry.render s (.field field cs)).sql ≠ "" := by
  intro hempty
  cases hsigns : Name.isOnlySigns field with
  | false =>
    have hmem := (mem_sql_render_field (s := s) h hsigns hv hcs).2
    rw [hempty] at hmem
    exact absurd hmem List.not_mem_nil
  | true =>
    rw [(sql_render_field_of_isOnlySigns h hsigns).2] at hempty
    exact absurd hempty (by decide)

end Entry

/-! ### What a draft carries -/

/-- A field that is no expression and a value come to a comparison. -/
theorem Criterion.read_is {field : String} (hfield : Name.isExpression field = false)
    (hne : field ≠ "") (v : Value) :
    (Criterion.is field (.value v)).read = .ok (.onField field (.eq v)) := by
  have htrim := Name.trim_of_not_isExpression hfield
  simp only [Criterion.is, Criterion.read, Criterion.readStated, htrim, if_neg hne, hfield]
  rfl

namespace Draft

variable {d : Draft} {st : Statement}

/-- Without a view the entries of a draft stand in its statement as they are. -/
theorem exists_entry_of_select (hview : d.document.view = none) (h : d.select.1 = .ok st)
    {k : Connective} {x : Entry} (hx : x ∈ Filter.entries k d.document.filter)
    (hsql : (x.render (d.document.scope d.renderer)).sql ≠ "") :
    ∃ before after : Fragment,
      st.sql = (before ++ x.render (d.document.scope d.renderer) ++ after).sql ∧
      st.params =
        (before ++ x.render (d.document.scope d.renderer) ++ after).params ++ d.binds := by
  obtain ⟨doc, hdoc, rfl⟩ := exists_of_select h
  have hcloses := closes_of_finished hdoc
  have hscope : doc.scope d.renderer = d.document.scope d.renderer := by
    have haliases : doc.kept.aliases = d.document.kept.aliases := by rw [hcloses.kept]
    exact congrArg (Scope.mk d.renderer) haliases
  rw [← (hcloses.unviewed hview).1] at hx
  rw [← hscope] at hsql ⊢
  obtain ⟨before, after, hrender⟩ := Document.infix_render hx hsql
  refine ⟨before, after, ?_, ?_⟩ <;> simp [build, Renderer.select, hrender]

theorem require_is (d : Draft) (k : Connective) {field : String}
    (hfield : Name.isExpression field = false) (hne : field ≠ "") (v : Value) :
    d.require k (.is field (.value v)) = d.addCondition k field (.eq v) := by
  rw [require, Criterion.read_is hfield hne v]
  rfl

/-- The entry of the field has the new condition behind those that were declared before. -/
theorem mem_entries_addCondition (d : Draft) (k : Connective) (field : String) (c : Condition) :
    .field field (d.ledger.conditions k field ++ [c]) ∈
      Filter.entries k (d.addCondition k field c).document.filter := by
  have hledger : (d.ledger.record k field c).conditions k field =
      d.ledger.conditions k field ++ [c] := by
    rw [Ledger.conditions_record, if_pos ⟨rfl, rfl⟩]
  show _ ∈ Filter.entries k (Filter.putField k field
    ((d.ledger.record k field c).conditions k field) d.document.filter)
  rw [hledger]
  exact Filter.mem_entries_putField k field _ _

/-- What becomes of a value that is demanded of a field, if the field is no expression. Without a
name it is a fault. Else, if the statement is made, the entry of the field stands in it, with all
that was demanded of the field before. The value is a parameter once for each field that the text
stands for, and the entry has a mark for it. Only a text of signs and nothing else stands for no
field: then the value is nowhere, and the entry is an empty pair of parentheses. -/
theorem carries_of_require (hfault : d.fault = none) (hview : d.document.view = none)
    (k : Connective) {field : String} (hfield : Name.isExpression field = false) {v : Value}
    (hv : v ≠ .null) :
    let e := d.require k (.is field (.value v))
    let scope := d.document.scope d.renderer
    (field = "" → e.fault = some .blankField) ∧
      (field ≠ "" → e.fault = none ∧ ∀ st, e.select.1 = .ok st →
        ∃ before entry after : Fragment,
          entry = Entry.render scope (.field field (d.ledger.conditions k field ++ [.eq v])) ∧
          st.sql = (before ++ entry ++ after).sql ∧
          st.params = (before ++ entry ++ after).params ++ d.binds ∧
          entry.params = (List.replicate (Name.fields field).length
            (Entry.conditionParams scope (d.ledger.conditions k field) ++
              [.positional v])).flatten ∧
          (Name.isOnlySigns field = false → Name.fields field ≠ [] ∧ '?' ∈ entry.sql.toList) ∧
          (Name.isOnlySigns field = true → Name.fields field = [] ∧ entry.sql = "()")) := by
  intro e scope
  constructor
  · rintro rfl
    have hread : (Criterion.is "" (.value v)).read = .error .blankField := rfl
    simp [e, Draft.require, hread, Draft.fault_recordFault, hfault]
  · intro hne
    have he : e = d.addCondition k field (.eq v) := d.require_is k hfield hne v
    clear_value e
    subst he
    refine ⟨hfault, fun st hst => ?_⟩
    have hmem := d.mem_entries_addCondition k field (.eq v)
    have hcs : .eq v ∈ d.ledger.conditions k field ++ [.eq v] :=
      List.mem_append_right _ (List.mem_singleton_self _)
    have hsql := Entry.sql_render_field_ne_empty (s := scope) hfield hv hcs
    obtain ⟨before, after, hst, hparams⟩ :=
      exists_entry_of_select (d := d.addCondition k field (.eq v)) hview hst hmem hsql
    refine ⟨before, _, after, rfl, hst, hparams, ?_, ?_, ?_⟩
    · rw [Entry.params_render_field]
      simp [Entry.conditionParams, Condition.render_eq scope "" hv, Piece.params]
    · exact fun hsigns => Entry.mem_sql_render_field hfield hsigns hv hcs
    · exact fun hsigns => Entry.sql_render_field_of_isOnlySigns hfield hsigns

/-- A draft on a table, and nothing else. -/
def bareSample : Draft := (new {}).declare (.tables (.text "t"))

/-- The value for a text of two fields is bound twice. For a text of one sign it is lost, and the
statement is no SQL. -/
theorem carries_of_require_bareSample :
    (∃ st, (bareSample.require .and (.is "a|b" (.value (.int 5)))).select.1 = .ok st ∧
      ∃ before entry after : Fragment, st.sql = (before ++ entry ++ after).sql ∧
        entry.params = [.positional (.int 5), .positional (.int 5)] ∧ '?' ∈ entry.sql.toList) ∧
      (bareSample.require .and (.is "|" (.value (.int 5)))).fault = none ∧
      ∃ st, (bareSample.require .and (.is "|" (.value (.int 5)))).select.1 = .ok st ∧
        st.sql = "SELECT * FROM t WHERE ()" ∧ st.params = [] := by
  have hfive : Value.int 5 ≠ .null := nofun
  constructor
  · have hpair : Name.isExpression "a|b" = false := by decide
    obtain ⟨-, hcarried⟩ := carries_of_require (d := bareSample) rfl rfl .and hpair hfive
    obtain ⟨before, entry, after, -, hsql, -, hparams, hmark, -⟩ :=
      (hcarried (by decide)).2 _ rfl
    exact ⟨_, rfl, before, entry, after, hsql, hparams, (hmark (by decide)).2⟩
  · have hsign : Name.isExpression "|" = false := by decide
    obtain ⟨-, hcarried⟩ := carries_of_require (d := bareSample) rfl rfl .and hsign hfive
    exact ⟨(hcarried (by decide)).1, _, rfl, by decide +kernel, by decide +kernel⟩

end Draft

end SqlSelect
