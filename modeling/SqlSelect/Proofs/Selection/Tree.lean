import SqlSelect.Proofs.Selection.Clause
import SqlSelect.Render

/-!
# WHERE clauses as trees of conditions

A condition on a field, raw SQL and an existence test are atomic, whatever is inside of them.
Groups, several conditions on one field, and fields that stand for several fields are not.

* `Entry.term`, `Branch.clauses`, `Document.clause`: the tree of an entry, of branches and of the
  WHERE clause of a document. What has no text has no tree;
* `Entry.written_term`, `Document.renderClause_filter`: the trees are written as the entries and the
  clauses are rendered.
-/

namespace SqlSelect

open Fragment

/-! ### Trees -/

/-- Conditions on the field that is written `key`: each of them must hold. -/
def Condition.term (s : Scope) (key : String) (c : Condition) : List Condition → Term
  | [] => .atom (c.render s key)
  | d :: ds =>
    .enclosed (.joined .and (.atom (c.render s key)) ((d :: ds).map fun e => .atom (e.render s key)))

/-- Conditions on the fields that a field text stands for. -/
def fieldTerm (s : Scope) (field : String) (c : Condition) (cs : List Condition) : Term :=
  match Name.fanOut? field with
  | some (k, n :: ns) =>
    .enclosed (.joined k (c.term s (s.key n) cs) (ns.map fun m => c.term s (s.key m) cs))
  -- signs without a name between them leave nothing but the parentheses
  | some (_, []) => .atom (enclosed [])
  | none => c.term s (s.key field) cs

mutual

/-- The tree of an entry. -/
def Entry.term (s : Scope) : Entry → Option Term
  | .field name (c :: cs) => some (fieldTerm s name c cs)
  | .field name [] => (Name.fanOut? name).map fun _ => .atom (renderField s name fun _ => [])
  | .raw sql binds => some (.enclosed (.single (.atom [.raw sql binds])))
  | .group bs => (Clause.several (Branch.clauses s bs)).map .enclosed
  | .exist query negated => some (.atom ((Entry.exist query negated).render s))

/-- The trees of the entries that have any. -/
def Entry.terms (s : Scope) : List Entry → List Term
  | [] => []
  | e :: es => (Entry.term s e).toList ++ Entry.terms s es

/-- The trees of the branches that have any, with their connectives. -/
def Branch.clauses (s : Scope) : List Branch → List (Connective × Clause)
  | [] => []
  | ⟨k, es⟩ :: bs =>
    match Entry.terms s es with
    | [] => Branch.clauses s bs
    | t :: ts => (k, .joined k t ts) :: Branch.clauses s bs

end

/-- The tree of a soft delete. -/
def SoftDelete.term (s : Scope) (soft : SoftDelete) : Term :=
  fieldTerm s soft.field soft.condition []

/-- A clause with a term that must hold besides. -/
def Clause.besides (body : Option Clause) : Option Term → Option Clause
  | none => body
  | some t =>
    match body with
    | none => some (.single t)
    | some c => some (.joined .and (.enclosed c) [t])

/-- The tree of the WHERE clause of a document. -/
def Document.clause (r : Renderer) (d : Document) : Option Clause :=
  Clause.besides (Clause.several (Branch.clauses (d.scope r) d.filter))
    (d.softDelete.map (·.term (d.scope r)))

/-! ### How trees are written -/

theorem isEmpty_cons_of_ne {s : String} (h : s ≠ "") (f : Fragment) :
    Fragment.isEmpty (.text s :: f) = false := by
  show (decide (s = "") && Fragment.isEmpty f) = false
  rw [decide_eq_false h, Bool.false_and]

/-- A comparison is never without text. -/
theorem Comparison.isEmpty_render (op : Comparison) (key : String) (v : Value) :
    (op.render key v).isEmpty = false := by
  unfold render
  split <;> exact isEmpty_cons_of_ne (by simp [String.append_eq_empty_iff]) _

/-- A condition is never without text. -/
theorem Condition.isEmpty_render (s : Scope) (key : String) (c : Condition) :
    (c.render s key).isEmpty = false := by
  cases c with
  | compare op v => exact op.isEmpty_render key v
  | inList vs negated =>
    unfold render renderMembers
    split
    · cases negated <;> rfl
    · exact isEmpty_cons_of_ne (by simp [String.append_eq_empty_iff]) _
  | _ =>
    unfold render
    exact isEmpty_cons_of_ne (by simp [String.append_eq_empty_iff]) _

theorem Condition.write_term (s : Scope) (key : String) (c : Condition) (cs : List Condition) :
    (c.term s key cs).write = conjoined ((c :: cs).map fun d => d.render s key) := by
  cases cs with
  | nil => exact Term.write_atom _
  | cons d ds =>
    rw [term, Term.write_enclosed, Clause.write_joined]
    simp only [List.map_cons, List.map_map, Function.comp_def, Term.write_atom]
    rfl

theorem write_fieldTerm (s : Scope) (field : String) (c : Condition) (cs : List Condition) :
    (fieldTerm s field c cs).write =
      renderField s field fun key => (c :: cs).map fun d => d.render s key := by
  unfold fieldTerm renderField
  cases Name.fanOut? field with
  | none => exact Condition.write_term s (s.key field) c cs
  | some p =>
    obtain ⟨k, ns⟩ := p
    cases ns with
    | nil => exact Term.write_atom _
    | cons n ns =>
      dsimp only
      rw [Term.write_enclosed, Clause.write_joined, List.map_cons, List.map_map]
      simp only [Function.comp_def, Condition.write_term]
      rfl

theorem Condition.isEmpty_write_term (s : Scope) (key : String) (c : Condition)
    (cs : List Condition) : (c.term s key cs).write.isEmpty = false := by
  cases cs with
  | nil =>
    rw [term, Term.write_atom]
    exact c.isEmpty_render s key
  | cons d ds => exact Term.isEmpty_write_enclosed _

theorem isEmpty_write_fieldTerm (s : Scope) (field : String) (c : Condition)
    (cs : List Condition) : (fieldTerm s field c cs).write.isEmpty = false := by
  unfold fieldTerm
  split
  · exact Term.isEmpty_write_enclosed _
  · rfl
  · exact c.isEmpty_write_term s _ cs

/-- The tree is written as the fragment, and there is some text; without a tree there is none. -/
inductive Term.IsWritten : Option Term → Fragment → Prop
  | nothing : IsWritten none []
  | something {t : Term} {f : Fragment} : t.write = f → f.isEmpty = false → IsWritten (some t) f

/-- A field without conditions has no text but for its parentheses. -/
theorem Entry.isWritten_bare (s : Scope) (name : String) :
    Term.IsWritten (Entry.term s (.field name [])) (Entry.render s (.field name [])) := by
  have hrender : Entry.render s (.field name []) = renderField s name fun _ => [] := rfl
  rw [hrender, term, renderField]
  cases Name.fanOut? name with
  | none => exact .nothing
  | some p => exact .something (Term.write_atom _) rfl

/-- A group is written as several clauses in parentheses. -/
theorem Term.isWritten_group {cs : List (Connective × Clause)} {js : List Junction}
    (h : List.Forall₂ Clause.IsWritten cs js) :
    Term.IsWritten ((Clause.several cs).map .enclosed) (Junction.renderNonempty js).enclosedIfAny := by
  have hwrite := Clause.write_several h
  unfold Fragment.enclosedIfAny
  cases hseveral : Clause.several cs with
  | none =>
    rw [hseveral] at hwrite
    rw [← hwrite]
    exact .nothing
  | some c =>
    rw [hseveral] at hwrite
    have hvisible := Clause.isEmpty_write_several h hseveral
    rw [← hwrite]
    show Term.IsWritten (some (.enclosed c)) (if c.write.isEmpty then [] else c.write.enclosed)
    rw [hvisible]
    exact .something (Term.write_enclosed c) rfl

mutual

/-- An entry is written as its tree. -/
theorem Entry.isWritten_term (s : Scope) : ∀ e : Entry, Term.IsWritten (e.term s) (e.render s)
  | .field name [] => Entry.isWritten_bare s name
  | .field name (c :: cs) => by
    have heach : (fun key => Condition.renderEach s key (c :: cs)) =
        fun key => (c :: cs).map fun d => d.render s key :=
      funext fun key => Condition.renderEach_eq_map s key (c :: cs)
    have hwrite := write_fieldTerm s name c cs
    rw [Entry.term, Entry.render, heach]
    exact .something hwrite (hwrite ▸ isEmpty_write_fieldTerm s name c cs)
  | .raw sql binds => .something (Term.write_enclosed _) rfl
  | .group bs => Term.isWritten_group (Branch.isWritten_clauses s bs)
  | .exist query negated => .something (Term.write_atom _) <| by
    rw [Entry.render]
    exact isEmpty_cons_of_ne (by simp [String.append_eq_empty_iff]) _

/-- The entries that have text are written as their trees. -/
theorem Entry.visible_renderEach (s : Scope) :
    ∀ es : List Entry, visible (Entry.renderEach s es) = (Entry.terms s es).map Term.write
  | [] => rfl
  | e :: es => by
    have hes := Entry.visible_renderEach s es
    rw [Entry.renderEach, Entry.terms, List.map_append, ← hes]
    have he := Entry.isWritten_term s e
    generalize Entry.term s e = t at he ⊢
    generalize Entry.render s e = f at he ⊢
    cases he with
    | nothing => rfl
    | something hwrite hvisible => simp [visible, hvisible, hwrite]

/-- The branches that have entries with text are written as their trees. -/
theorem Branch.isWritten_clauses (s : Scope) : ∀ bs : List Branch,
    List.Forall₂ Clause.IsWritten (Branch.clauses s bs)
      ((Branch.renderEach s bs).filter fun j => !j.parts.isEmpty)
  | [] => .nil
  | ⟨k, es⟩ :: bs => by
    have hes := Entry.visible_renderEach s es
    have hbs := Branch.isWritten_clauses s bs
    rw [Branch.renderEach, Branch.render, Branch.clauses, hes]
    cases hterms : Entry.terms s es with
    | nil => exact hbs
    | cons t ts =>
      have ht : t.write.isEmpty = false := by
        have hmem : t.write ∈ visible (Entry.renderEach s es) := by
          rw [hes, hterms]
          exact List.mem_cons_self
        simpa [visible] using (List.mem_filter.1 hmem).2
      exact .cons ⟨rfl, Clause.write_joined k t ts, Clause.isEmpty_write_joined ht k ts⟩ hbs

end

/-! ### The WHERE clause -/

/-- A body with a condition that must hold besides is written as their trees. -/
theorem Clause.write_besides {body : Option Clause} {soft : Option Term}
    (hbody : ∀ c ∈ body, c.write.isEmpty = false) (hsoft : ∀ t ∈ soft, t.write.isEmpty = false) :
    ((besides body soft).map write).getD [] =
      renderBesides ((body.map write).getD []) (soft.map Term.write) := by
  cases soft with
  | none => rfl
  | some t =>
    have ht : t.write.isEmpty = false := hsoft t rfl
    cases body with
    | none => simp [besides, renderBesides, enclosedIfAny, visible, ht, write_single]
    | some c =>
      have henclosed : c.write.enclosedIfAny = c.write.enclosed := by
        rw [enclosedIfAny, hbody c rfl]
        rfl
      have hboth : visible [c.write.enclosed, t.write] = [c.write.enclosed, t.write] := by
        have hc : c.write.enclosed.isEmpty = false := rfl
        simp [visible, hc, ht]
      show (joined .and (.enclosed c) [t]).write =
        (Junction.mk .and (visible [c.write.enclosedIfAny, t.write])).render
      rw [write_joined, henclosed, hboth, List.map_cons, Term.write_enclosed]
      rfl

theorem Clause.isEmpty_write_besides {body : Option Clause} {soft : Option Term}
    (hbody : ∀ c ∈ body, c.write.isEmpty = false) (hsoft : ∀ t ∈ soft, t.write.isEmpty = false) :
    ∀ c ∈ besides body soft, c.write.isEmpty = false := by
  intro c hc
  cases soft with
  | none => exact hbody c hc
  | some t =>
    cases body with
    | none =>
      cases hc
      exact hsoft t rfl
    | some b =>
      cases hc
      exact isEmpty_write_joined (Term.isEmpty_write_enclosed b) .and [t]

theorem SoftDelete.write_term (s : Scope) (soft : SoftDelete) :
    (soft.term s).write = soft.render s := by
  obtain ⟨field, condition⟩ := soft
  exact write_fieldTerm s field condition []

/-- The WHERE clause of a document is written as its tree, and absent if there is none. -/
theorem Document.renderClause_filter (r : Renderer) (d : Document) :
    d.renderClause r .filter = ((d.clause r).map fun c => .text " WHERE " :: c.write).getD [] := by
  have hbranches := Branch.isWritten_clauses (d.scope r) d.filter
  have hbody : ∀ c ∈ Clause.several (Branch.clauses (d.scope r) d.filter),
      c.write.isEmpty = false := fun c hc => Clause.isEmpty_write_several hbranches hc
  have hsoft : ∀ t ∈ d.softDelete.map (·.term (d.scope r)), t.write.isEmpty = false := by
    intro t ht
    obtain ⟨soft, -, rfl⟩ := Option.map_eq_some_iff.1 ht
    exact isEmpty_write_fieldTerm _ _ _ _
  have hwrite : ((d.clause r).map Clause.write).getD [] =
      renderBesides (d.renderFilter r) (d.softDelete.map (·.render (d.scope r))) := by
    rw [Document.clause, Clause.write_besides hbody hsoft, Clause.write_several hbranches,
      Option.map_map]
    simp only [Function.comp_def, SoftDelete.write_term]
    rfl
  show renderWhere (renderBesides (d.renderFilter r) _) = _
  rw [← hwrite, renderWhere]
  have hvisible := Clause.isEmpty_write_besides hbody hsoft
  cases hclause : d.clause r with
  | none => rfl
  | some c =>
    have hc : c.write.isEmpty = false := hvisible c hclause
    show (if c.write.isEmpty then [] else .text " WHERE " :: c.write) = _
    rw [hc]
    rfl

end SqlSelect
