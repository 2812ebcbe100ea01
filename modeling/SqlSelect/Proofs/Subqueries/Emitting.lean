import SqlSelect.Proofs.Selection.Carried
import SqlSelect.Proofs.Selection.Guard

/-!
# Rendering into an accumulator

A document can also be rendered to bare text, with its parameters put behind those in an
accumulator as it goes, clause by clause and subquery by subquery.

* `Emit`, `Emit.push`: texts with an accumulator of parameters;
* `Condition.emit`, `Entry.emit`, `Branch.emitEach`, `UnionItem.emit`, `Document.emit`: rendering in
  this way;
* `Emit.Gives m a ps`: from any accumulator, `m` gives `a` and puts exactly `ps` behind it;
* `Document.run_emit`: rendering into an accumulator gives the text of the document by itself,
  and puts the parameters of the document by itself behind what is there.
-/

namespace SqlSelect

/-! ### Emitting -/

/-- Something that is made while parameters are put into an accumulator. -/
abbrev Emit := StateM (List Param)

/-- Puts parameters behind those that are there. -/
def Emit.push (ps : List Param) : Emit Unit := modify (· ++ ps)

/-- A comparison with a value. -/
def Comparison.emit (op : Comparison) (key : String) (v : Value) : Emit String :=
  match op, v with
  | .eq, .null => return key ++ " IS NULL"
  | .neq, .null => return key ++ " IS NOT NULL"
  | op, v => do
    Emit.push [.positional v]
    return key ++ " " ++ op.sql ++ " ?"

/-- Membership in a list of values. -/
def emitMembers (key : String) (vs : List Value) (negated : Bool) : Emit String :=
  if vs.isEmpty then return if negated then "1=1" else "1=0"
  else do
    Emit.push (vs.map .positional)
    return key ++ " " ++ negation negated ++ "IN (" ++ Text.join "," (vs.map fun _ => "?") ++ ")"

/-- Conditions on one field as one text. -/
def conjunction : List String → String
  | [] => ""
  | [s] => s
  | ss => "(" ++ Text.join " AND " ss ++ ")"

/-- The conditions on the fields that a field text stands for. -/
def emitField (s : Scope) (field : String) (conditions : String → Emit (List String)) :
    Emit String :=
  match Name.fanOut? field with
  | some (k, names) => do
    let parts ← names.mapM fun n => conjunction <$> conditions (s.key n)
    return "(" ++ Text.join (Junction.separator k) parts ++ ")"
  | none => conjunction <$> conditions (s.key field)

/-- Groups of texts in parentheses, each behind its connective. -/
def restText : List (Connective × String) → String
  | [] => ""
  | (k, body) :: rest => Junction.separator k ++ "(" ++ body ++ ")" ++ restText rest

/-- Groups of texts as one text. A lone one stands as it is. -/
def bodiesText : List (Connective × String) → String
  | [] => ""
  | [(_, body)] => body
  | (_, body) :: rest => "(" ++ body ++ ")" ++ restText rest

/-- The texts under each connective as one text. Empty texts, and connectives that are left without
any, do not count. -/
def groupsText (groups : List (Connective × List String)) : String :=
  let written := groups.map fun g => (g.1, g.2.filter (· ≠ ""))
  let populated := written.filter fun g => !g.2.isEmpty
  bodiesText (populated.map fun g => (g.1, Text.join (Junction.separator g.1) g.2))

/-- The text in parentheses if there is any. -/
def parenthesized (body : String) : String := if body = "" then "" else "(" ++ body ++ ")"

/-- The text of the clauses in the order of the layout. -/
def Layout.text (clause : Slot → String) : List LayoutPart → String
  | [] => ""
  | .word s :: parts => s ++ Layout.text clause parts
  | .slot s :: parts => clause s ++ Layout.text clause parts

mutual

/-- A condition on the field that is written `key`. -/
def Condition.emit (s : Scope) (key : String) : Condition → Emit String
  | .compare op v => op.emit key v
  | .compareRaw op sql => return key ++ " " ++ op.sql ++ " " ++ sql
  | .isNull => return key ++ " IS NULL"
  | .isNotNull => return key ++ " IS NOT NULL"
  | .inList vs negated => emitMembers key vs negated
  | .between low high negated => do
    Emit.push [.positional low, .positional high]
    return key ++ " " ++ negation negated ++ "BETWEEN ? AND ?"
  | .exp sql binds => do
    Emit.push binds
    return "(" ++ key ++ " " ++ sql ++ ")"
  | .inQuery query negated => do
    let sub ← query.emit s.renderer
    return key ++ " " ++ negation negated ++ "IN (" ++ sub ++ ")"

/-- The conditions on the field that is written `key`. -/
def Condition.emitEach (s : Scope) (key : String) : List Condition → Emit (List String)
  | [] => return []
  | c :: cs => do
    let first ← c.emit s key
    let rest ← Condition.emitEach s key cs
    return first :: rest

/-- A member of a WHERE clause. -/
def Entry.emit (s : Scope) : Entry → Emit String
  | .field name cs => emitField s name fun key => Condition.emitEach s key cs
  | .raw sql binds => do
    Emit.push binds
    return "(" ++ sql ++ ")"
  | .group bs => do
    let groups ← Branch.emitEach s bs
    return parenthesized (groupsText groups)
  | .exist query negated => do
    let sub ← query.emit s.renderer
    return negation negated ++ "EXISTS (" ++ sub ++ ")"

/-- The members of a branch. -/
def Entry.emitEach (s : Scope) : List Entry → Emit (List String)
  | [] => return []
  | e :: es => do
    let first ← e.emit s
    let rest ← Entry.emitEach s es
    return first :: rest

/-- A branch: its connective and its members. -/
def Branch.emit (s : Scope) : Branch → Emit (Connective × List String)
  | ⟨k, es⟩ => do
    let parts ← Entry.emitEach s es
    return (k, parts)

/-- The branches of a WHERE clause. -/
def Branch.emitEach (s : Scope) : List Branch → Emit (List (Connective × List String))
  | [] => return []
  | b :: bs => do
    let first ← b.emit s
    let rest ← Branch.emitEach s bs
    return first :: rest

/-- A statement united with the main one. -/
def UnionItem.emit (r : Renderer) : UnionItem → Emit String
  | .raw sql all => return unionKeyword all ++ "(" ++ TableName.expand r.tablePrefix sql ++ ")"
  | .query query all => do
    let sub ← query.emit r
    return unionKeyword all ++ "(" ++ sub ++ ")"

/-- The statements united with the main one. -/
def UnionItem.emitAll (r : Renderer) : List UnionItem → Emit String
  | [] => return ""
  | u :: us => do
    let first ← u.emit r
    let rest ← UnionItem.emitAll r us
    return first ++ rest

/-- The WHERE clause of a document: its branches, and under `AND` the condition of its soft delete
behind them as a group. -/
def SoftDelete.emitWhere (s : Scope) (groups : List (Connective × List String)) :
    Option SoftDelete → Emit String
  | none => return groupsText groups
  | some ⟨field, condition⟩ => do
    let guard ← emitField s field fun key => (fun sql => [sql]) <$> condition.emit s key
    return groupsText [(.and, [parenthesized (groupsText groups), guard])]

/-- A document. -/
def Document.emit (r : Renderer) : Document → Emit String
  | d@{ aliases, filter, unions, softDelete, .. } => do
    let scope : Scope := ⟨r, aliases⟩
    let groups ← Branch.emitEach scope filter
    let body ← SoftDelete.emitWhere scope groups softDelete
    let unions ← UnionItem.emitAll r unions
    return Layout.text
      (fun
        | .filter => if body = "" then "" else " WHERE " ++ body
        | .unions => unions
        | slot => d.clauseText r slot)
      Layout.select

end

/-! ### What is made, and what is put behind the accumulator -/

namespace Emit

variable {α β : Type}

/-- Whatever is in the accumulator, `a` is made, and `ps` are put behind it. -/
def Gives (m : Emit α) (a : α) (ps : List Param) : Prop :=
  ∀ before, m.run before = (a, before ++ ps)

variable {m : Emit α} {f : α → Emit β} {a : α} {b : β} {ps qs : List Param}

theorem gives_pure (a : α) : Gives (pure a) a [] := fun before => by
  rw [List.append_nil]
  rfl

theorem gives_push (ps : List Param) : Gives (push ps) () ps := fun _ => rfl

/-- One after the other, each puts its parameters behind those of the other. -/
theorem Gives.bind (hm : Gives m a ps) (hf : Gives (f a) b qs) : Gives (m >>= f) b (ps ++ qs) := by
  intro before
  rw [StateT.run_bind, hm before]
  show (f a).run (before ++ ps) = _
  rw [hf, List.append_assoc]

theorem Gives.bind_pure (hm : Gives m a ps) (g : α → β) :
    Gives (do let x ← m; return g x) (g a) ps := by
  rw [← List.append_nil ps]
  exact hm.bind (gives_pure (g a))

theorem Gives.map (hm : Gives m a ps) (g : α → β) : Gives (g <$> m) (g a) ps := by
  rw [map_eq_pure_bind]
  exact hm.bind_pure g

/-- Parameters are put behind the accumulator, and `a` is made. -/
theorem gives_push_pure (ps : List Param) (a : α) :
    Gives (do push ps; return a) a ps :=
  (gives_push ps).bind_pure fun _ => a

/-- What is made for each member of a list. -/
theorem gives_mapM {g : α → Emit β} {made : α → β} {params : α → List Param} {as : List α}
    (h : ∀ a ∈ as, Gives (g a) (made a) (params a)) :
    Gives (as.mapM g) (as.map made) (as.flatMap params) := by
  induction as with
  | nil =>
    rw [List.mapM_nil]
    exact gives_pure []
  | cons a as ih =>
    obtain ⟨ha, has⟩ := List.forall_mem_cons.1 h
    rw [List.mapM_cons]
    exact ha.bind ((ih has).bind_pure (made a :: ·))

/-- Rendering into an accumulator makes the text of a fragment and adds its parameters. -/
abbrev Makes (m : Emit String) (f : Fragment) : Prop := Gives m f.sql f.params

theorem Gives.makes {m : Emit String} {s : String} {f : Fragment} (h : Gives m s ps)
    (hsql : f.sql = s) (hparams : f.params = ps) : Makes m f := by
  rw [Makes, hsql, hparams]
  exact h

/-- A text without parameters. -/
theorem makes_text (s : String) : Makes (return s) (.ofText s) :=
  (gives_pure s).makes (String.append_empty ..) rfl

end Emit

/-! ### The texts of what is rendered -/

namespace Fragment

theorem sql_join (sep : String) (fs : List Fragment) :
    (join sep fs).sql = Text.join sep (fs.map sql) := by
  match fs with
  | [] => rfl
  | [f] => rfl
  | f :: g :: fs =>
    have hrest : (join sep (g :: fs)).sql = Text.join sep (g.sql :: fs.map sql) := sql_join sep _
    rw [join, sql_append, sql_cons, hrest, List.map_cons, List.map_cons, Text.join_cons_cons,
      String.append_assoc]
    rfl

theorem sql_within (before after : String) (f : Fragment) :
    (within before after f).sql = before ++ f.sql ++ after := by
  rw [within, sql_cons, sql_append, sql_cons, sql_nil, String.append_empty, String.append_assoc]
  rfl

theorem sql_enclosed (f : Fragment) : f.enclosed.sql = "(" ++ f.sql ++ ")" := sql_within ..

theorem params_enclosed (f : Fragment) : f.enclosed.params = f.params := params_within ..

theorem sql_enclosedIfAny (f : Fragment) : f.enclosedIfAny.sql = parenthesized f.sql := by
  unfold enclosedIfAny parenthesized
  by_cases h : f.sql = ""
  · rw [if_pos (Fragment.isEmpty_iff.2 h), if_pos h]
    rfl
  · rw [if_neg (mt Fragment.isEmpty_iff.1 h), if_neg h, sql_enclosed]

theorem sql_conjoined (fs : List Fragment) : (conjoined fs).sql = conjunction (fs.map sql) := by
  match fs with
  | [] => rfl
  | [f] => rfl
  | f :: g :: fs =>
    have hsql : (conjoined (f :: g :: fs)).sql = (join " AND " (f :: g :: fs)).enclosed.sql := rfl
    rw [hsql, sql_enclosed, sql_join]
    rfl

theorem visible_eq_filter (fs : List Fragment) : visible fs = fs.filter fun f => f.sql ≠ "" := by
  rw [visible]
  congr 1
  funext f
  rw [decide_not, Bool.not_inj_iff, Bool.eq_iff_iff, Fragment.isEmpty_iff, decide_eq_true_iff]

/-- What has no text has no parameters: it is nothing at all. -/
def IsSolid (f : Fragment) : Prop := f.isEmpty = true → f = []

theorem params_visible {fs : List Fragment} (h : ∀ f ∈ fs, IsSolid f) :
    (visible fs).flatMap params = fs.flatMap params := by
  induction fs with
  | nil => rfl
  | cons f fs ih =>
    obtain ⟨hf, hfs⟩ := List.forall_mem_cons.1 h
    rw [List.flatMap_cons, ← ih hfs, visible, List.filter_cons]
    split
    · rfl
    · next hempty =>
      rw [hf (by simpa using hempty)]
      rfl

theorem isSolid_enclosedIfAny (f : Fragment) : f.enclosedIfAny.IsSolid := by
  unfold enclosedIfAny IsSolid
  split
  · exact fun _ => rfl
  · exact fun h => absurd h Bool.false_ne_true

theorem IsSolid.params_enclosedIfAny {f : Fragment} (h : f.IsSolid) :
    f.enclosedIfAny.params = f.params := by
  unfold enclosedIfAny
  split
  · next hempty => rw [h hempty]
  · exact params_enclosed f

end Fragment

namespace Junction

theorem sql_renderRest (js : List Junction) :
    (renderRest js).sql = restText (js.map fun j => (j.connective, j.render.sql)) := by
  induction js with
  | nil => rfl
  | cons j js ih =>
    rw [renderRest, Fragment.sql_cons, Fragment.sql_append, ih, Fragment.sql_enclosed,
      List.map_cons, restText]
    simp only [Piece.sql, String.append_assoc]

theorem sql_renderNonempty (js : List Junction) :
    (renderNonempty js).sql = bodiesText (js.map fun j => (j.connective, j.render.sql)) := by
  match js with
  | [] => rfl
  | [j] => rfl
  | j :: i :: js =>
    have hall : renderNonempty (j :: i :: js) = j.render.enclosed ++ renderRest (i :: js) := rfl
    rw [hall, Fragment.sql_append, sql_renderRest, Fragment.sql_enclosed]
    rfl

/-- The condition of junctions that have only parts with text. -/
theorem sql_renderAll (groups : List (Connective × List Fragment)) :
    (renderAll (groups.map fun g => ⟨g.1, Fragment.visible g.2⟩)).sql =
      groupsText (groups.map fun g => (g.1, g.2.map Fragment.sql)) := by
  rw [renderAll, sql_renderNonempty, groupsText]
  simp only [List.map_map, List.filter_map, Function.comp_def, Fragment.visible_eq_filter,
    List.isEmpty_map, render, Fragment.sql_join]

theorem params_renderRest (js : List Junction) :
    (renderRest js).params = js.flatMap fun j => j.parts.flatMap Fragment.params := by
  induction js with
  | nil => rfl
  | cons j js ih =>
    rw [renderRest, Fragment.params_cons, Fragment.params_append, ih, Fragment.params_enclosed,
      render, Fragment.params_join, List.flatMap_cons]
    rfl

theorem params_renderNonempty (js : List Junction) :
    (renderNonempty js).params = js.flatMap fun j => j.parts.flatMap Fragment.params := by
  match js with
  | [] => rfl
  | [j] => simp [renderNonempty, render, Fragment.params_join]
  | j :: i :: js =>
    have hall : renderNonempty (j :: i :: js) = j.render.enclosed ++ renderRest (i :: js) := rfl
    rw [hall, Fragment.params_append, params_renderRest, Fragment.params_enclosed,
      render, Fragment.params_join]
    rfl

theorem params_renderAll (js : List Junction) :
    (renderAll js).params = js.flatMap fun j => j.parts.flatMap Fragment.params := by
  rw [renderAll, params_renderNonempty]
  induction js with
  | nil => rfl
  | cons j js ih =>
    rw [List.filter_cons, List.flatMap_cons]
    split
    · rw [List.flatMap_cons, ih]
    · next hempty =>
      have hparts : j.parts = [] := by simpa using hempty
      rw [ih, hparts]
      rfl

end Junction

open Emit Fragment

/-! ### Rendering into an accumulator -/

theorem Comparison.makes_emit (op : Comparison) (key : String) (v : Value) :
    Makes (op.emit key v) (op.render key v) := by
  unfold Comparison.emit
  split
  · exact makes_text _
  · exact makes_text _
  · next heq hneq =>
    have hrender : op.render key v = [.text (key ++ " " ++ op.sql ++ " "), .mark v] := by
      rw [Comparison.render]
      · exact heq
      · exact hneq
    refine (gives_push_pure _ _).makes ?_ ?_ <;> rw [hrender]
    · simp only [sql_cons, sql_nil, Piece.sql, String.append_empty, String.append_assoc]
      rfl
    · rfl

theorem sql_marks (vs : List Value) : (marks vs).sql = Text.join "," (vs.map fun _ => "?") := by
  rw [marks, sql_join, List.map_map]
  rfl

theorem params_marks (vs : List Value) : (marks vs).params = vs.map .positional := by
  rw [marks, params_join, List.flatMap_map]
  exact List.flatMap_pure_eq_map ..

theorem makes_emitMembers (key : String) (vs : List Value) (negated : Bool) :
    Makes (emitMembers key vs negated) (renderMembers key vs negated) := by
  unfold emitMembers renderMembers
  split
  · exact makes_text _
  · refine (gives_push_pure _ _).makes ?_ ?_
    · rw [sql_within, sql_marks]
    · rw [params_within, params_marks]

/-- The texts and the parameters of fragments that are written one after the other. -/
abbrev Emit.MakesEach (m : Emit (List String)) (fs : List Fragment) : Prop :=
  Gives m (fs.map sql) (fs.flatMap params)

theorem Emit.MakesEach.singleton {m : Emit String} {f : Fragment} (h : Makes m f) :
    MakesEach ((fun sql => [sql]) <$> m) [f] := by
  rw [MakesEach, List.flatMap_singleton]
  exact h.map fun sql => [sql]

theorem makes_emitField {s : Scope} {emitted : String → Emit (List String)}
    {rendered : String → List Fragment} (h : ∀ key, MakesEach (emitted key) (rendered key))
    (field : String) : Makes (emitField s field emitted) (renderField s field rendered) := by
  have hlone (key : String) : Makes (conjunction <$> emitted key) (conjoined (rendered key)) :=
    ((h key).map conjunction).makes (sql_conjoined _) (params_conjoined _)
  unfold emitField renderField
  cases Name.fanOut? field with
  | none => exact hlone (s.key field)
  | some fan =>
    obtain ⟨k, names⟩ := fan
    have hparts := gives_mapM fun n (_ : n ∈ names) => hlone (s.key n)
    have hjoined := hparts.map fun parts => "(" ++ Text.join (Junction.separator k) parts ++ ")"
    refine hjoined.makes ?_ ?_
    · rw [sql_enclosed, Junction.render, sql_join, List.map_map]
      rfl
    · rw [params_enclosed, Junction.render, params_join, List.flatMap_map]

theorem Condition.emitEach_eq_mapM (s : Scope) (key : String) (cs : List Condition) :
    Condition.emitEach s key cs = cs.mapM (Condition.emit s key) := by
  induction cs with
  | nil => rfl
  | cons c cs ih => rw [Condition.emitEach, ih, List.mapM_cons]

theorem Entry.emitEach_eq_mapM (s : Scope) (es : List Entry) :
    Entry.emitEach s es = es.mapM (Entry.emit s) := by
  induction es with
  | nil => rfl
  | cons e es ih => rw [Entry.emitEach, ih, List.mapM_cons]

theorem Branch.emitEach_eq_mapM (s : Scope) (bs : List Branch) :
    Branch.emitEach s bs = bs.mapM (Branch.emit s) := by
  induction bs with
  | nil => rfl
  | cons b bs ih => rw [Branch.emitEach, ih, List.mapM_cons]

theorem makesEach_mapM {α : Type} {emit : α → Emit String} {render : α → Fragment} {as : List α}
    (h : ∀ a ∈ as, Makes (emit a) (render a)) : MakesEach (as.mapM emit) (as.map render) := by
  rw [MakesEach, List.map_map, List.flatMap_map]
  exact gives_mapM h

/-- The texts and the parameters of a branch, whether its members have any text or not. -/
abbrev Branch.Emits (s : Scope) (b : Branch) : Prop :=
  Gives (b.emit s) (b.connective, (b.entries.map (Entry.render s)).map sql)
    ((b.entries.map (Entry.render s)).flatMap params)

theorem Entry.isSolid_render (s : Scope) (e : Entry) : (e.render s).IsSolid := by
  intro h
  have hwritten := Entry.isWritten_term s e
  generalize Entry.term s e = t at hwritten
  generalize Entry.render s e = f at hwritten h ⊢
  cases hwritten with
  | nothing => rfl
  | something _ hvisible => exact absurd h (by rw [hvisible]; decide)

theorem Branch.gives_emitEach {s : Scope} {bs : List Branch} (h : ∀ b ∈ bs, b.Emits s) :
    ∃ groups, groupsText groups = (Junction.renderAll (Branch.renderEach s bs)).sql ∧
      Gives (Branch.emitEach s bs) groups (Junction.renderAll (Branch.renderEach s bs)).params := by
  have hsql := Junction.sql_renderAll
    (bs.map fun b => (b.connective, b.entries.map (Entry.render s)))
  have hrender : (bs.map fun b => (b.connective, b.entries.map (Entry.render s))).map
      (fun g => Junction.mk g.1 (visible g.2)) = Branch.renderEach s bs := by
    rw [Branch.renderEach_eq_map, List.map_map]
    refine List.map_congr_left fun b _ => ?_
    obtain ⟨k, es⟩ := b
    rw [Branch.render, Entry.renderEach_eq_map]
    rfl
  -- the members that are left out have no parameters either
  have hparams : (Junction.renderAll (Branch.renderEach s bs)).params =
      bs.flatMap fun b => (b.entries.map (Entry.render s)).flatMap params := by
    rw [Junction.params_renderAll, ← hrender, List.flatMap_map, List.flatMap_map]
    refine List.flatMap_congr fun b _ => params_visible ?_
    exact List.forall_mem_map.2 fun e _ => e.isSolid_render s
  rw [hrender, List.map_map] at hsql
  refine ⟨_, hsql.symm, ?_⟩
  rw [hparams, Branch.emitEach_eq_mapM]
  exact gives_mapM h

theorem isSolid_renderBesides (s : Scope) (bs : List Branch) (soft : Option SoftDelete) :
    (renderBesides (Junction.renderAll (Branch.renderEach s bs))
      (SoftDelete.renderOption s soft)).IsSolid := by
  cases soft with
  | none => exact Branch.renderAll_eq_nil_of_isEmpty s
  | some soft =>
    rw [SoftDelete.renderOption, ← SoftDelete.renderAll_guard]
    exact Branch.renderAll_eq_nil_of_isEmpty s

theorem renderBesides_eq_renderAll (body : Fragment) {guard : Fragment}
    (hguard : guard.isEmpty = false) :
    renderBesides body (some guard) =
      Junction.renderAll [⟨.and, visible [body.enclosedIfAny, guard]⟩] := by
  have hmem : guard ∈ visible [body.enclosedIfAny, guard] :=
    List.mem_filter.2 ⟨by simp, by rw [hguard]; rfl⟩
  exact (Junction.renderAll_singleton (List.ne_nil_of_mem hmem)).symm

theorem sql_renderBesides (body : Fragment) {guard : Fragment} (hguard : guard.isEmpty = false) :
    (renderBesides body (some guard)).sql =
      groupsText [(.and, [parenthesized body.sql, guard.sql])] := by
  have hsql := Junction.sql_renderAll [(.and, [body.enclosedIfAny, guard])]
  rw [renderBesides_eq_renderAll body hguard, ← sql_enclosedIfAny]
  exact hsql

theorem params_renderBesides {body guard : Fragment} (hbody : body.IsSolid)
    (hguard : guard.isEmpty = false) :
    (renderBesides body (some guard)).params = body.params ++ guard.params := by
  have hsolid : ∀ f ∈ [body.enclosedIfAny, guard], f.IsSolid := by
    simp only [List.forall_mem_cons]
    exact ⟨isSolid_enclosedIfAny body, fun h => absurd h (by rw [hguard]; decide), by simp⟩
  rw [renderBesides_eq_renderAll body hguard, Junction.params_renderAll, List.flatMap_singleton,
    params_visible hsolid, ← hbody.params_enclosedIfAny]
  simp

/-- The body of a WHERE clause, behind the parameters of its branches. -/
theorem SoftDelete.gives_emitWhere {s : Scope} {groups : List (Connective × List String)}
    {body : Fragment} (hbody : groupsText groups = body.sql) (hsolid : body.IsSolid)
    {soft : Option SoftDelete}
    (hsoft : ∀ x ∈ soft, ∀ key, Makes (x.condition.emit s key) (x.condition.render s key)) :
    ∃ ps, (renderBesides body (renderOption s soft)).params = body.params ++ ps ∧
      Gives (emitWhere s groups soft) (renderBesides body (renderOption s soft)).sql ps := by
  cases soft with
  | none =>
    refine ⟨[], (List.append_nil _).symm, ?_⟩
    rw [emitWhere, hbody]
    exact gives_pure _
  | some soft =>
    obtain ⟨field, condition⟩ := soft
    have hvisible := SoftDelete.isEmpty_render s ⟨field, condition⟩
    have hguard : Makes
        (emitField s field fun key => (fun sql => [sql]) <$> condition.emit s key)
        (SoftDelete.render s ⟨field, condition⟩) :=
      makes_emitField (fun key => .singleton (hsoft _ rfl key)) field
    refine ⟨_, params_renderBesides hsolid hvisible, ?_⟩
    rw [renderOption, sql_renderBesides body hvisible, ← hbody]
    exact hguard.map fun sql => groupsText [(.and, [parenthesized (groupsText groups), sql])]

/-- The clauses are written in the order of the layout. -/
theorem Layout.sql_fill (clause : Slot → Fragment) (parts : List LayoutPart) :
    (Layout.fill clause parts).sql = Layout.text (fun slot => (clause slot).sql) parts := by
  induction parts with
  | nil => rfl
  | cons part parts ih =>
    have hcons : Layout.fill clause (part :: parts) =
        Layout.fillPart clause part ++ Layout.fill clause parts := List.flatMap_cons ..
    rw [hcons, sql_append, ih]
    cases part with
    | word s =>
      rw [Layout.text, Layout.fillPart, ofText, sql_cons, sql_nil, String.append_empty]
      rfl
    | slot s => rfl

theorem Document.params_render_clauses (r : Renderer) (d : Document) :
    (d.render r).params =
      (d.renderClause r .filter).params ++ (d.renderClause r .unions).params := by
  rw [Document.render_eq_fill]
  simp [Layout.fill, Layout.select, Layout.fillPart, renderClause, ofText, Piece.params]

/-- What is between two texts. -/
theorem Emit.Gives.makes_within {m : Emit String} {f : Fragment} (h : Makes m f)
    (before after : String) :
    Makes (do let sub ← m; return before ++ sub ++ after) (f.within before after) :=
  (h.bind_pure fun sub => before ++ sub ++ after).makes (sql_within ..) (params_within ..)

theorem UnionItem.makes_emitAll {r : Renderer} {us : List UnionItem}
    (h : ∀ u ∈ us, Makes (u.emit r) (u.render r)) :
    Makes (UnionItem.emitAll r us) (UnionItem.renderAll r us) := by
  induction us with
  | nil => exact gives_pure ""
  | cons u us ih =>
    obtain ⟨hu, hus⟩ := List.forall_mem_cons.1 h
    have hrest := (ih hus).bind_pure ((u.render r).sql ++ ·)
    rw [UnionItem.emitAll, UnionItem.renderAll]
    exact (hu.bind hrest).makes (sql_append ..) (params_append ..)

theorem sql_renderWhere (body : Fragment) :
    (renderWhere body).sql = if body.sql = "" then "" else " WHERE " ++ body.sql := by
  unfold renderWhere
  by_cases h : body.sql = ""
  · rw [if_pos (Fragment.isEmpty_iff.2 h), if_pos h]
    rfl
  · rw [if_neg (mt Fragment.isEmpty_iff.1 h), if_neg h]
    rfl

theorem Fragment.IsSolid.params_renderWhere {body : Fragment} (h : body.IsSolid) :
    (renderWhere body).params = body.params := by
  unfold renderWhere
  split
  · next hempty => rw [h hempty]
  · rfl

theorem Document.emit_eq (r : Renderer) (d : Document) :
    d.emit r = (do
      let groups ← Branch.emitEach (d.scope r) d.filter
      let body ← SoftDelete.emitWhere (d.scope r) groups d.softDelete
      let unions ← UnionItem.emitAll r d.unions
      return Layout.text
        (fun
          | .filter => if body = "" then "" else " WHERE " ++ body
          | .unions => unions
          | slot => d.clauseText r slot)
        Layout.select) := by
  cases d
  rw [Document.emit]
  rfl

/-- A document of which all conditions and united statements are written as they are rendered. -/
theorem Document.makes_emit {r : Renderer} {d : Document}
    (hfilter : ∀ b ∈ d.filter, b.Emits (d.scope r))
    (hsoft : ∀ x ∈ d.softDelete, ∀ key,
      Makes (x.condition.emit (d.scope r) key) (x.condition.render (d.scope r) key))
    (hunions : ∀ u ∈ d.unions, Makes (u.emit r) (u.render r)) :
    Makes (d.emit r) (d.render r) := by
  obtain ⟨groups, hcombine, hgroups⟩ := Branch.gives_emitEach hfilter
  have hsolid : (Junction.renderAll (Branch.renderEach (d.scope r) d.filter)).IsSolid :=
    Branch.renderAll_eq_nil_of_isEmpty (d.scope r)
  obtain ⟨guarded, hparams, hbody⟩ := SoftDelete.gives_emitWhere hcombine hsolid hsoft
  have hwhere : d.renderClause r .filter = renderWhere (renderBesides
      (Junction.renderAll (Branch.renderEach (d.scope r) d.filter))
      (SoftDelete.renderOption (d.scope r) d.softDelete)) := by
    rw [SoftDelete.renderOption_eq_map]
    rfl
  rw [emit_eq]
  refine Gives.makes
    (hgroups.bind (hbody.bind ((UnionItem.makes_emitAll hunions).bind (gives_pure _)))) ?_ ?_
  · rw [render_eq_fill, Layout.sql_fill]
    congr 1
    funext slot
    cases slot with
    | filter => rw [hwhere, sql_renderWhere]
    | unions => rfl
    | _ => exact String.append_empty ..
  · have hsolid := isSolid_renderBesides (d.scope r) d.filter d.softDelete
    rw [params_render_clauses, hwhere, hsolid.params_renderWhere, hparams, List.append_nil,
      List.append_assoc]
    rfl

/-- Every node of a document is written as it is rendered. -/
theorem emit_induction :
    DocumentInduction (fun c => ∀ s key, Makes (c.emit s key) (c.render s key))
      (fun e => ∀ s, Makes (e.emit s) (e.render s)) (fun b => ∀ s, b.Emits s)
      (fun u => ∀ r, Makes (u.emit r) (u.render r))
      (fun d => ∀ r, Makes (d.emit r) (d.render r)) where
  compare op v s key := by
    rw [Condition.emit, Condition.render]
    exact op.makes_emit key v
  compareRaw op sql s key := by
    rw [Condition.emit, Condition.render]
    exact makes_text _
  isNull s key := by
    rw [Condition.emit, Condition.render]
    exact makes_text _
  isNotNull s key := by
    rw [Condition.emit, Condition.render]
    exact makes_text _
  inList vs negated s key := by
    rw [Condition.emit, Condition.render]
    exact makes_emitMembers key vs negated
  between low high negated s key := by
    rw [Condition.emit, Condition.render]
    refine (gives_push_pure _ _).makes ?_ rfl
    simp only [sql_cons, sql_nil, Piece.sql, String.append_empty, String.append_assoc]
    rfl
  exp sql binds s key := by
    rw [Condition.emit, Condition.render]
    refine (gives_push_pure _ _).makes ?_ ?_
    · rw [sql_within]
      simp only [sql_cons, sql_nil, Piece.sql, String.append_empty, String.append_assoc]
    · rw [params_within]
      exact List.append_nil _
  inQuery query negated hquery s key := by
    rw [Condition.emit, Condition.render]
    exact (hquery s.renderer).makes_within _ _
  field name cs hcs s := by
    rw [Entry.emit, Entry.render]
    refine makes_emitField (fun key => ?_) name
    rw [Condition.emitEach_eq_mapM, Condition.renderEach_eq_map]
    exact makesEach_mapM fun c hc => hcs c hc s key
  raw sql binds s := by
    rw [Entry.emit, Entry.render]
    refine (gives_push_pure _ _).makes ?_ ?_
    · rw [sql_enclosed]
      simp only [sql_cons, sql_nil, Piece.sql, String.append_empty, String.append_assoc]
    · rw [params_enclosed]
      exact List.append_nil _
  group bs hbs s := by
    obtain ⟨groups, hcombine, hgroups⟩ := Branch.gives_emitEach fun b hb => hbs b hb s
    have hsolid : (Junction.renderAll (Branch.renderEach s bs)).IsSolid :=
      Branch.renderAll_eq_nil_of_isEmpty s
    have hgroup := hgroups.bind_pure fun groups => parenthesized (groupsText groups)
    rw [Entry.emit, Entry.render]
    exact hgroup.makes (by rw [sql_enclosedIfAny, hcombine]) hsolid.params_enclosedIfAny
  exist query negated hquery s := by
    rw [Entry.emit, Entry.render]
    exact (hquery s.renderer).makes_within _ _
  branch k es hes s := by
    have heach := makesEach_mapM fun e he => hes e he s
    rw [Branch.Emits, Branch.emit, Entry.emitEach_eq_mapM]
    exact heach.bind_pure fun parts => (k, parts)
  unionRaw sql all r := by
    rw [UnionItem.emit, UnionItem.render]
    exact makes_text _
  unionQuery query all hquery r := by
    rw [UnionItem.emit, UnionItem.render]
    exact (hquery r).makes_within _ _
  document d hfilter hsoft hunions r :=
    Document.makes_emit (fun b hb => hfilter b hb _) (fun x hx key => hsoft x hx _ key)
      fun u hu => hunions u hu r

/-- Whatever is in the accumulator, rendering a document into it makes the text of the document by
itself, and puts the parameters of the document by itself behind what is there. -/
theorem Document.run_emit (r : Renderer) (d : Document) (before : List Param) :
    (d.emit r).run before = ((r.select d).sql, before ++ (r.select d).params) := by
  rw [Renderer.select, Statement.sql_ofFragment, Statement.params_ofFragment]
  exact emit_induction.ofDocument d r before

end SqlSelect
