import SqlSelect.Proofs.Subqueries.Emitting

/-!
# How a statement is put together from its clauses

Each clause is rendered by itself, and the template of a statement is filled with the clauses. What
they say is not looked into again, so that a text may look like a place of the template.

* `Template.exists_layout`: which words and which clauses a filled template consists of is settled
  by the template alone;
* `Document.sql_renderClause`: only the conditions and the united statements have parameters;
* `Renderer.select_assembles`: the text and the parameters of a statement, and of one that is
  rendered behind the parameters of others.
-/

namespace SqlSelect

namespace Layout

variable (clause : Slot → Fragment)

theorem fill_append (parts parts' : List LayoutPart) :
    fill clause (parts ++ parts') = fill clause parts ++ fill clause parts' :=
  List.flatMap_append

theorem fill_cons_slot (slot : Slot) (parts : List LayoutPart) :
    fill clause (.slot slot :: parts) = clause slot ++ fill clause parts :=
  List.flatMap_cons ..

end Layout

namespace Template

open Layout (fill_append fill_cons_slot)

/-- The layout of characters that are written as they stand. -/
def literalLayout (cs : List Char) : List LayoutPart :=
  if cs = [] then [] else [.word (String.ofList cs)]

theorem fill_literalLayout (clause : Slot → Fragment) (cs : List Char) :
    Layout.fill clause (literalLayout cs) = literal cs := by
  rw [literalLayout, literal]
  split <;> rfl

/-- Whatever the template, and whatever the clauses say: where each of them stands, and between which
words, is read from the template alone. -/
theorem exists_layout (template : List Char) :
    ∃ parts, ∀ clause, fillChars clause template = Layout.fill clause parts := by
  induction hn : template.length using Nat.strong_induction_on generalizing template with
  | _ n ih =>
    by_cases hsign : '%' ∈ template
    · obtain ⟨word, after, rfl, hword⟩ := List.eq_append_cons_of_mem hsign
      by_cases hagain : '%' ∈ after
      · obtain ⟨name, rest, rfl, hname⟩ := List.eq_append_cons_of_mem hagain
        have hfill := fun clause => fillChars_of_name clause hword hname rest
        cases hslot : Slot.ofName? (String.ofList name) with
        | some slot =>
          -- the place is filled, and what is left of the template is shorter
          obtain ⟨parts, hparts⟩ := ih _ (by simp at hn; omega) rest rfl
          refine ⟨literalLayout word ++ .slot slot :: parts, fun clause => ?_⟩
          rw [hfill, hslot, fill_append, fill_cons_slot, fill_literalLayout, ← hparts]
          exact List.append_assoc ..
        | none =>
          obtain ⟨parts, hparts⟩ := ih _ (by simp at hn ⊢; omega) (name ++ '%' :: rest) rfl
          refine ⟨literalLayout (word ++ ['%']) ++ parts, fun clause => ?_⟩
          rw [hfill, hslot, fill_append, fill_literalLayout, ← hparts]
      · refine ⟨literalLayout (word ++ '%' :: after), fun clause => ?_⟩
        rw [fillChars_of_lone clause hword hagain, fill_literalLayout]
    · refine ⟨literalLayout template, fun clause => ?_⟩
      rw [fillChars_of_not_mem clause hsign, fill_literalLayout]

end Template

namespace Document

variable (r : Renderer) (d : Document)

/-- A clause that holds neither conditions nor united statements is a text without parameters. -/
theorem sql_renderClause {slot : Slot} (hfilter : slot ≠ .filter) (hunions : slot ≠ .unions) :
    (d.renderClause r slot).sql = d.clauseText r slot ∧ (d.renderClause r slot).params = [] := by
  have hflat : d.renderClause r slot = .ofText (d.clauseText r slot) := by
    cases slot with
    | filter => exact absurd rfl hfilter
    | unions => exact absurd rfl hunions
    | _ => rfl
  rw [hflat]
  exact ⟨String.append_empty .., rfl⟩

end Document

/-- A statement is its clauses one after the other. Its template is filled with them as with any
others, whatever they say. The parameters are those of the conditions and then those of the united
statements, as the two stand in the text, and they are put behind any that are there before. -/
theorem Renderer.select_assembles (r : Renderer) (d : Document) :
    let clause := fun slot => (d.renderClause r slot).sql
    let sql := "SELECT" ++ clause .distinct ++ " " ++ clause .fields ++ " FROM " ++
      clause .tables ++ clause .forced ++ clause .joins ++ clause .filter ++ clause .group ++
      clause .having ++ clause .unions ++ clause .order ++ clause .limit ++ clause .lock ++
      clause .comment
    let params := (d.renderClause r .filter).params ++ (d.renderClause r .unions).params
    (∀ template, ∃ parts, ∀ clauses,
      Template.fill clauses template = Layout.fill clauses parts) ∧
      d.render r = Template.fill (d.renderClause r) Template.select ∧
      (r.select d).sql = sql ∧ (r.select d).params = params ∧
      (∀ before, (d.emit r).run before = (sql, before ++ params)) ∧
      ∀ slot, slot ≠ .filter → slot ≠ .unions →
        clause slot = d.clauseText r slot ∧ (d.renderClause r slot).params = [] := by
  intro clause sql params
  have hsql : (r.select d).sql = sql := by
    rw [Renderer.select, Statement.sql_ofFragment, Document.render_eq_fill, Layout.sql_fill]
    simp only [Layout.select, Layout.text, sql, clause, String.append_assoc, String.append_empty]
  have hparams : (r.select d).params = params := by
    rw [Renderer.select, Statement.params_ofFragment]
    exact d.params_render_clauses r
  refine ⟨fun template => Template.exists_layout template.toList, ?_, hsql, hparams,
    fun before => ?_, fun slot hfilter hunions => d.sql_renderClause r hfilter hunions⟩
  · rw [Template.fill_select, Document.render_eq_fill]
  · rw [Document.run_emit, hsql, hparams]

/-- Texts that look like places are written as they stand, and the parameter of the condition comes
behind the one that is there before. -/
theorem Renderer.select_assembles_placesSample :
    let d : Document :=
      { tables := ["%WHERE%"], filter := [⟨.and, [.raw "a = ?" [.positional .null]]⟩],
        having := some "%LIMIT% > 5%", comment := some "%" }
    let sql := "SELECT * FROM %WHERE% WHERE (a = ?) HAVING %LIMIT% > 5% /* % */"
    Slot.having ≠ .filter ∧ Slot.having ≠ .unions ∧
      (d.renderClause {} .having).sql = " HAVING %LIMIT% > 5%" ∧
      (Renderer.select {} d).sql = sql ∧
      (d.emit {}).run [.positional (.bool true)] =
        (sql, [.positional (.bool true), .positional .null]) := by
  intro d sql
  obtain ⟨-, -, hsql, -, hemit, hflat⟩ := Renderer.select_assembles {} d
  have hfilter : Slot.having ≠ .filter := by decide
  have hunions : Slot.having ≠ .unions := by decide
  have htext : (Renderer.select {} d).sql = sql := by
    rw [hsql]
    decide +kernel
  refine ⟨hfilter, hunions, (hflat _ hfilter hunions).1, htext, ?_⟩
  rw [hemit, ← hsql, htext]
  rfl

end SqlSelect
