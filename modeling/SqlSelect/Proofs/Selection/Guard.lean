import SqlSelect.Filter
import SqlSelect.Proofs.Selection.Tree

/-!
# Soft deletes

A soft delete is one more condition around whatever the WHERE clause says: the clause becomes a
group, and the condition stands behind it under `AND`.

* `SoftDelete.guard`: the branches rewritten in this way;
* `SoftDelete.renderAll_guard`: the rewritten branches are rendered to the body of the clause with
  the condition besides;
* `Branch.renderAll_eq_nil_of_isEmpty`: what branches say has text, or it is nothing at all;
* `Renderer.select_softDelete`: what a soft delete does to a statement and its parameters.
-/

namespace SqlSelect

open Fragment

/-- The condition of a soft delete as a member of a clause. -/
def SoftDelete.entry (soft : SoftDelete) : Entry := .field soft.field [soft.condition]

/-- Branches with the condition of a soft delete around them. Branches without entries vanish. -/
def SoftDelete.guard (soft : SoftDelete) (bs : List Branch) : List Branch :=
  Filter.push .and soft.entry (if Filter.isEmpty bs then [] else Filter.push .and (.group bs) [])

theorem SoftDelete.render_entry (s : Scope) (soft : SoftDelete) :
    soft.entry.render s = soft.render s := by
  cases soft
  rw [entry, Entry.render, SoftDelete.render]
  rfl

/-- The condition of a soft delete is never without text. -/
theorem SoftDelete.isEmpty_render (s : Scope) (soft : SoftDelete) :
    (soft.render s).isEmpty = false := by
  rw [← soft.write_term s]
  exact isEmpty_write_fieldTerm s soft.field soft.condition []

/-- Branches without entries make no condition. -/
theorem Branch.renderAll_of_isEmpty (s : Scope) {bs : List Branch} (h : Filter.isEmpty bs = true) :
    Junction.renderAll (Branch.renderEach s bs) = [] := by
  have hparts : (Branch.renderEach s bs).filter (fun j => !j.parts.isEmpty) = [] := by
    rw [Branch.renderEach_eq_map, List.filter_eq_nil_iff, List.forall_mem_map]
    intro b hb
    have hentries : b.entries = [] := by simpa using List.all_eq_true.1 h b hb
    obtain ⟨k, es⟩ := b
    obtain rfl : es = [] := hentries
    simp [Branch.render, Entry.renderEach, visible]
  rw [Junction.renderAll, hparts]
  rfl

/-- If what branches say has no text, then it is nothing at all. -/
theorem Branch.renderAll_eq_nil_of_isEmpty (s : Scope) {bs : List Branch}
    (h : (Junction.renderAll (Branch.renderEach s bs)).isEmpty = true) :
    Junction.renderAll (Branch.renderEach s bs) = [] := by
  have hbranches := Branch.isWritten_clauses s bs
  have hwrite : ((Clause.several (Branch.clauses s bs)).map Clause.write).getD [] =
      Junction.renderAll (Branch.renderEach s bs) := Clause.write_several hbranches
  rw [← hwrite] at h ⊢
  cases hbody : Clause.several (Branch.clauses s bs) with
  | none => rfl
  | some c =>
    rw [hbody] at h
    exact absurd h (Bool.eq_false_iff.1 (Clause.isEmpty_write_several hbranches hbody))

/-- The body of a clause with the condition of a soft delete besides. -/
theorem renderBesides_of_isEmpty_eq_false {body soft : Fragment} (hbody : body.isEmpty = false)
    (hsoft : soft.isEmpty = false) :
    renderBesides body (some soft) = body.enclosed ++ .text (Junction.separator .and) :: soft := by
  have henclosed : body.enclosedIfAny = body.enclosed := by simp [enclosedIfAny, hbody]
  have hboth : visible [body.enclosed, soft] = [body.enclosed, soft] := by
    have hvisible : body.enclosed.isEmpty = false := rfl
    simp [visible, hvisible, hsoft]
  rw [renderBesides, henclosed, hboth]
  rfl

theorem renderBesides_nil {soft : Fragment} (hsoft : soft.isEmpty = false) :
    renderBesides [] (some soft) = soft := by
  have hvisible : visible [enclosedIfAny [], soft] = [soft] := by
    have hnil : enclosedIfAny [] = [] := rfl
    simp [visible, hnil, hsoft]
  rw [renderBesides, hvisible, Junction.render_singleton]

/-- The guarded branches make one condition: what the branches say, with the condition of the soft
delete besides. -/
theorem SoftDelete.renderAll_guard (s : Scope) (soft : SoftDelete) (bs : List Branch) :
    Junction.renderAll (Branch.renderEach s (soft.guard bs)) =
      renderBesides (Junction.renderAll (Branch.renderEach s bs)) (some (soft.render s)) := by
  have hlone (es : List Entry) (h : visible (Entry.renderEach s es) ≠ []) :
      Junction.renderAll (Branch.renderEach s [⟨.and, es⟩]) =
        (Junction.mk .and (visible (Entry.renderEach s es))).render := by
    rw [Branch.renderEach, Branch.render, Branch.renderEach]
    exact Junction.renderAll_singleton h
  have hsoft := soft.isEmpty_render s
  cases hempty : Filter.isEmpty bs with
  | true =>
    have hguard : soft.guard bs = [⟨.and, [soft.entry]⟩] := by
      simp [guard, hempty, Filter.push, Filter.update]
    have hvisible : visible (Entry.renderEach s [soft.entry]) = [soft.render s] := by
      simp [Entry.renderEach, soft.render_entry s, visible, hsoft]
    rw [hguard, Branch.renderAll_of_isEmpty s hempty, renderBesides_nil hsoft,
      hlone _ (by simp [hvisible]), hvisible, Junction.render_singleton]
  | false =>
    have hguard : soft.guard bs = [⟨.and, [.group bs, soft.entry]⟩] := by
      simp [guard, hempty, Filter.push, Filter.update]
    have heach : Entry.renderEach s [.group bs, soft.entry] =
        [(Junction.renderAll (Branch.renderEach s bs)).enclosedIfAny, soft.render s] := by
      rw [Entry.renderEach, Entry.renderEach, Entry.renderEach, soft.render_entry, Entry.render]
    have hmem : soft.render s ∈ visible (Entry.renderEach s [.group bs, soft.entry]) :=
      List.mem_filter.2 ⟨by simp [heach], by simp [hsoft]⟩
    rw [hguard, hlone _ (List.ne_nil_of_mem hmem), heach]
    rfl

/-- A soft delete is exactly an `AND` around whatever was there. Let `body` be what the document
says in its WHERE clause without it, and `guard` its condition as an entry by itself. Then the WHERE
clause is the guard alone if the body is empty, and else the body in parentheses and the guard
behind it, with the parameters in this order. This is the clause of the guarded branches, all other
clauses stay, and the guard is never empty. -/
theorem Renderer.select_softDelete (r : Renderer) {d : Document} {soft : SoftDelete}
    (h : d.softDelete = some soft) :
    let bare := { d with softDelete := none }
    let body := bare.renderFilter r
    let guard := Entry.render (d.scope r) (.field soft.field [soft.condition])
    let clause := d.renderClause r .filter
    bare.renderClause r .filter = renderWhere body ∧
      guard.sql ≠ "" ∧
      (body.sql = "" → clause.sql = " WHERE " ++ guard.sql ∧ clause.params = guard.params) ∧
      (body.sql ≠ "" → clause.sql = " WHERE (" ++ body.sql ++ ") AND " ++ guard.sql ∧
        clause.params = body.params ++ guard.params) ∧
      r.select bare =
        .ofFragment (Layout.fill (bare.renderClause r) Layout.select) d.fetchSql ∧
      r.select d =
        .ofFragment (Layout.fill (Function.update (bare.renderClause r) .filter clause)
          Layout.select) d.fetchSql ∧
      r.select d = r.select { bare with filter := soft.guard d.filter } := by
  intro bare body guard clause
  have hguard : guard = soft.render (d.scope r) := soft.render_entry (d.scope r)
  have hvisible : guard.isEmpty = false := hguard ▸ soft.isEmpty_render _
  have hclause : clause = renderWhere (renderBesides body (some guard)) := by
    show renderWhere (renderBesides body (d.softDelete.map _)) = _
    rw [h, Option.map_some, hguard]
  -- the clause of the guarded branches is the same one
  have hguarded : Document.renderClause r { bare with filter := soft.guard d.filter } .filter =
      clause := by
    rw [hclause, hguard]
    exact congrArg renderWhere (soft.renderAll_guard (d.scope r) d.filter)
  have hothers : d.renderClause r = Function.update (bare.renderClause r) .filter clause := by
    funext slot
    cases slot <;> rfl
  have hrewritten : Document.renderClause r { bare with filter := soft.guard d.filter } =
      Function.update (bare.renderClause r) .filter clause := by
    funext slot
    cases slot with
    | filter => exact hguarded
    | _ => rfl
  refine ⟨rfl, fun hsql => ?_, fun hbody => ?_, fun hbody => ?_, ?_, ?_, ?_⟩
  · rw [isEmpty_iff.2 hsql] at hvisible
    cases hvisible
  · -- a body without text has no parameters either
    have hnil : body = [] := Branch.renderAll_eq_nil_of_isEmpty _ (isEmpty_iff.2 hbody)
    rw [hclause, hnil, renderBesides_nil hvisible, renderWhere, if_neg (by rw [hvisible]; decide)]
    exact ⟨rfl, rfl⟩
  · have hne : body.isEmpty = false := by rwa [Bool.eq_false_iff, ne_eq, Fragment.isEmpty_iff]
    have hwhere : clause =
        .text " WHERE " :: (body.enclosed ++ .text (Junction.separator .and) :: guard) := by
      rw [hclause, renderBesides_of_isEmpty_eq_false hne hvisible]
      rfl
    have hopening : " WHERE (" = " WHERE " ++ "(" := rfl
    have hjoining : ") AND " = ")" ++ Junction.separator .and := rfl
    rw [hwhere, hopening, hjoining]
    constructor
    · simp only [enclosed, within, sql_cons, sql_append, sql_nil, Piece.sql, String.append_assoc,
        String.append_empty]
    · simp [enclosed, within, Piece.params]
  · rw [Renderer.select, Document.render_eq_fill]
  · rw [Renderer.select, Document.render_eq_fill, hothers]
  · rw [Renderer.select, Renderer.select, Document.render_eq_fill, Document.render_eq_fill,
      hothers, hrewritten]

/-- Conditions under two connectives, with a soft delete on two fields. -/
def Document.softSample : Document :=
  { tables := ["t"]
    filter :=
      [⟨.or, [.field "a" [.compare .eq (.int 1)]]⟩,
        ⟨.and, [.raw "b = ?" [.positional (.int 2)]]⟩]
    softDelete := some ⟨"x|y", .between (.int 3) (.int 4) true⟩ }

/-- Entries that have no text, with a soft delete. -/
def Document.hollowSample : Document :=
  { tables := ["t"]
    filter := [⟨.or, [.group [], .field "a" []]⟩]
    softDelete := some ⟨"x", .isNull⟩ }

/-- The guard stands outermost, and alone where nothing else is said. -/
theorem Renderer.select_softDelete_softSample :
    Document.softSample.softDelete = some ⟨"x|y", .between (.int 3) (.int 4) true⟩ ∧
      (Document.softSample.renderClause {} .filter).sql =
        " WHERE ((a = ?) AND ((b = ?))) AND (x NOT BETWEEN ? AND ? OR y NOT BETWEEN ? AND ?)" ∧
      (Document.softSample.renderClause {} .filter).params.map (·.value.literal) =
        ["1", "2", "3", "4", "3", "4"] ∧
      Document.hollowSample.softDelete = some ⟨"x", .isNull⟩ ∧
      (Document.hollowSample.renderClause {} .filter).sql = " WHERE x IS NULL" := by
  obtain ⟨-, -, -, hbody, -⟩ := Renderer.select_softDelete {} (d := .softSample) rfl
  obtain ⟨-, -, halone, -⟩ := Renderer.select_softDelete {} (d := .hollowSample) rfl
  obtain ⟨hsql, hparams⟩ := hbody (by decide +kernel)
  refine ⟨rfl, hsql.trans (by decide +kernel), ?_, rfl,
    (halone (by decide +kernel)).1.trans (by decide +kernel)⟩
  rw [hparams]
  decide +kernel

end SqlSelect
