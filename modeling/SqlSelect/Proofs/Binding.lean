import SqlSelect.Proofs.Document.Writing

/-!
# Each value at its own mark

A statement is a text and, apart from it, a list of parameters. They are put together again by
counting the marks of the text from the left, so that one mark too many would shift every value
behind it.

* `Leaf.IsClosed`, `Leaf.IsBalanced`: raw SQL that leaves no quoted text open, and raw SQL that has
  as many positional marks as it has binds for them;
* `Fragment.Writes.count_eq`: the marks of a fragment are those of the leaves that it writes;
* `Fragment.Writes.fillLexemes_eq`: filling in the marks of a fragment writes each value in the
  place of its own mark;
* `Document.WellQuoted`: the documents of which this can be said, and
  `Renderer.realSql_select_eq_inlined` says it.
-/

namespace SqlSelect

open Placeholder

/-! ### The marks of a leaf -/

namespace Leaf

/-- The number of positional marks that are written for the leaf. -/
def marks : Leaf → Nat
  | text _ => 0
  | value _ => 1
  | operand sql => count sql
  | raw sql _ => count sql

/-- Does raw SQL in the leaf leave no quoted text open? -/
def IsClosed : Leaf → Prop
  | operand sql => isClosed sql = true
  | raw sql _ => isClosed sql = true
  | _ => True

/-- Are the positional marks as many as the values for them? -/
def IsBalanced (l : Leaf) : Prop := l.marks = Params.positionalCount l.params

/-- Does raw SQL in the leaf have no named marks? -/
def IsNameless : Leaf → Prop
  | operand sql => ∀ n, Lexeme.named n ∉ lexemes sql
  | raw sql _ => ∀ n, Lexeme.named n ∉ lexemes sql
  | _ => True

theorem positionalCount_flatMap (ls : List Leaf) :
    Params.positionalCount (ls.flatMap params) =
      (ls.map fun l => Params.positionalCount l.params).sum := by
  induction ls with
  | nil => rfl
  | cons l ls ih => simp [ih]

end Leaf

namespace Fragment

theorem sql_mark (v : Value) : sql [.mark v] = "?" := by simp [Piece.sql]
theorem sql_text (t : String) : sql [.text t] = t := by simp [Piece.sql]
theorem sql_text_raw (t s : String) (binds : List Param) :
    sql [.text t, .raw s binds] = t ++ s := by simp [Piece.sql]

end Fragment

namespace Fragment.Writes

variable {ls : List Leaf} {f : Fragment}

/-- A fragment leaves no quoted text open if none of its leaves does. -/
theorem isClosed_sql (h : Writes ls f) (hc : ∀ l ∈ ls, l.IsClosed) : isClosed f.sql = true := by
  induction h with
  | nil => rfl
  | text ht _ ih =>
    rw [sql_cons, Piece.sql, isClosed_append_of_isInert ht]
    exact ih hc
  | value v =>
    rw [sql_mark]
    decide
  | operand sql ht _ =>
    rw [sql_text, isClosed_append_of_isInert ht]
    exact hc _ List.mem_cons_self
  | raw sql binds ht _ =>
    rw [sql_text_raw, isClosed_append_of_isInert ht]
    exact hc _ List.mem_cons_self
  | append _ _ hcalm ihf ihg =>
    rw [List.forall_mem_append] at hc
    rw [sql_append]
    exact isClosed_append (ihf hc.1) (ihg hc.2) hcalm

/-- The positional marks of a fragment are those of its leaves. -/
theorem count_eq (h : Writes ls f) (hc : ∀ l ∈ ls, l.IsClosed) :
    count f.sql = (ls.map Leaf.marks).sum := by
  induction h with
  | nil => rfl
  | text ht _ ih =>
    rw [sql_cons, Piece.sql, count_append_of_isInert ht]
    exact ih hc
  | value v =>
    rw [sql_mark]
    rfl
  | operand sql ht _ =>
    rw [sql_text, count_append_of_isInert ht]
    rfl
  | raw sql binds ht _ =>
    rw [sql_text_raw, count_append_of_isInert ht]
    rfl
  | append hf _ hcalm ihf ihg =>
    rw [List.forall_mem_append] at hc
    -- the first part is closed and the second is calm, so that no mark goes on over the seam
    rw [sql_append, count_append (hf.isClosed_sql hc.1) hcalm, ihf hc.1, ihg hc.2, List.map_append,
      List.sum_append]

/-- If each leaf is balanced, so is the fragment. -/
theorem count_eq_positionalCount (h : Writes ls f) (hc : ∀ l ∈ ls, l.IsClosed)
    (hb : ∀ l ∈ ls, l.IsBalanced) : count f.sql = Params.positionalCount f.params := by
  rw [h.count_eq hc, h.params_eq, Leaf.positionalCount_flatMap]
  congr 1
  exact List.map_congr_left hb

/-- A fragment has no named marks if none of its leaves has. -/
theorem named_not_mem (h : Writes ls f) (hc : ∀ l ∈ ls, l.IsClosed) (hn : ∀ l ∈ ls, l.IsNameless)
    (n : List Char) : Lexeme.named n ∉ lexemes f.sql := by
  induction h with
  | nil => simp [lexemes, lexemesFrom, finish]
  | text ht _ ih =>
    rw [sql_cons, Piece.sql, lexemes_append_of_isInert ht]
    simpa using ih hc hn
  | value v =>
    rw [sql_mark]
    exact named_not_mem_lexemes (by decide) n
  | operand sql ht _ =>
    rw [sql_text, lexemes_append_of_isInert ht]
    simpa using hn _ List.mem_cons_self n
  | raw sql binds ht _ =>
    rw [sql_text_raw, lexemes_append_of_isInert ht]
    simpa using hn _ List.mem_cons_self n
  | append hf _ hcalm ihf ihg =>
    rw [List.forall_mem_append] at hc hn
    rw [sql_append, lexemes_append (hf.isClosed_sql hc.1) hcalm, List.mem_append, not_or]
    exact ⟨ihf hc.1 hn.1, ihg hc.2 hn.2⟩

/-- The values filled in at the marks of a fragment stand each in the place of its own mark,
whatever other parameters there are. -/
theorem fillLexemes_eq (h : Writes ls f) (hc : ∀ l ∈ ls, l.IsClosed) (hb : ∀ l ∈ ls, l.IsBalanced)
    (hn : ∀ l ∈ ls, l.IsNameless) (ps : List Param) :
    fillLexemes ps (Params.unnamed f.params) (lexemes f.sql) = f.inlined := by
  induction h with
  | nil => simp [lexemes, lexemesFrom, finish, fillLexemes]
  | @text t ls f ht _ ih =>
    rw [sql_cons, Piece.sql, lexemes_append_of_isInert ht, params_cons, Piece.params,
      List.nil_append, fillLexemes_chars_append, ih hc hb hn]
    simp [Piece.inlined]
  | value v =>
    rw [sql_mark]
    have hmark : lexemes "?" = [.positional] := by decide
    simp [hmark, Piece.params, Params.unnamed, fillLexemes, Piece.inlined]
  | @operand t sql ht _ =>
    -- a raw operand has no values of its own, and being balanced it has no marks either
    have hunnamed : Params.unnamed (params [.text (t ++ sql)]) = [] := rfl
    have hwrite : (lexemes sql).flatMap Lexeme.write = sql.toList :=
      write_lexemesFrom .plain sql.toList
    rw [sql_text, lexemes_append_of_isInert ht, fillLexemes_chars_append, hunnamed,
      fillLexemes_nil ps (hn _ List.mem_cons_self), hwrite]
    simp [Piece.inlined]
  | @raw t sql binds ht _ =>
    have hparams : params [.text t, .raw sql binds] = binds := by simp [Piece.params]
    rw [sql_text_raw, lexemes_append_of_isInert ht, fillLexemes_chars_append, hparams,
      fillLexemes_congr ps binds _ (hn _ List.mem_cons_self), ← inlined_eq_fillLexemes]
    simp [Piece.inlined]
  | @append ls ms f g hf _ hcalm ihf ihg =>
    rw [List.forall_mem_append] at hc hb hn
    -- the marks of the first part take its own values, and the others are left for the second
    have hlength : (Params.unnamed f.params).length = (lexemes f.sql).count .positional :=
      (hf.count_eq_positionalCount hc.1 hb.1).symm
    rw [sql_append, lexemes_append (hf.isClosed_sql hc.1) hcalm, params_append,
      Params.unnamed_append, fillLexemes_append ps _ _ _ _ hlength, ihf hc.1 hb.1 hn.1,
      ihg hc.2 hb.2 hn.2, inlined_append]

end Fragment.Writes

/-! ### Well-quoted documents -/

theorem Params.positionalCount_eq_length {ps : List Param} (h : ∀ p ∈ ps, p.isNamed = false) :
    positionalCount ps = ps.length := by
  have hfilter : ps.filter (!·.isNamed) = ps := List.filter_eq_self.2 fun p hp => by simp [h p hp]
  rw [positionalCount, unnamed, hfilter, List.length_map]

namespace Leaf

/-- Texts without binds are inert. Raw SQL has no colons, leaves no quoted text open and has as many
positional marks as it has binds, all of them without a name. -/
def WellQuoted : Leaf → Prop
  | text s => Text.IsOver isInert s
  | value _ => True
  | operand sql => Text.IsOver isInert sql
  | raw sql binds =>
    ':' ∉ sql.toList ∧ isClosed sql = true ∧ count sql = binds.length ∧
      ∀ p ∈ binds, p.isNamed = false

instance : DecidablePred WellQuoted
  | text s => inferInstanceAs (Decidable (Text.IsOver isInert s))
  | value _ => inferInstanceAs (Decidable True)
  | operand sql => inferInstanceAs (Decidable (Text.IsOver isInert sql))
  | raw sql binds =>
    inferInstanceAs (Decidable (':' ∉ sql.toList ∧ isClosed sql = true ∧
      count sql = binds.length ∧ ∀ p ∈ binds, p.isNamed = false))

variable {l : Leaf}

theorem WellQuoted.isClosed (h : l.WellQuoted) : l.IsClosed := by
  cases l with
  | text s => trivial
  | value v => trivial
  | operand sql =>
    have : Placeholder.isClosed (sql ++ "") = Placeholder.isClosed "" :=
      isClosed_append_of_isInert h ""
    rwa [String.append_empty] at this
  | raw sql binds => exact h.2.1

theorem WellQuoted.isNameless (h : l.WellQuoted) : l.IsNameless := by
  cases l with
  | text s => trivial
  | value v => trivial
  | operand sql => exact named_not_mem_lexemes fun hc => (isInert_iff.1 (h _ hc)).2.2 rfl
  | raw sql binds => exact named_not_mem_lexemes h.1

theorem WellQuoted.isBalanced (h : l.WellQuoted) : l.IsBalanced := by
  cases l with
  | text s => rfl
  | value v => rfl
  | operand sql => exact count_of_isInert h
  | raw sql binds => exact h.2.2.1.trans (Params.positionalCount_eq_length h.2.2.2).symm

/-- No bind of a well-quoted leaf has a name. -/
theorem WellQuoted.isNamed_eq_false (h : l.WellQuoted) {p : Param} (hp : p ∈ l.params) :
    p.isNamed = false := by
  cases l with
  | text s => exact absurd hp List.not_mem_nil
  | value v =>
    rw [List.mem_singleton.1 hp]
    rfl
  | operand sql => exact absurd hp List.not_mem_nil
  | raw sql binds => exact h.2.2.2 p hp

end Leaf

/-- A document is well quoted if each of its leaves is, and the prefix that stands for the table
placeholders in it is inert. -/
structure Document.WellQuoted (r : Renderer) (d : Document) : Prop where
  tablePrefix : Text.IsOver isInert r.tablePrefix
  leaves : ∀ l ∈ d.leaves, l.WellQuoted

/-- Writing the parameters of a statement into its text writes each value of the document in the
place of its own mark. The marks are as many as the parameters, none of which has a name, and the
parameters are the binds of the document in the order in which they are written. -/
theorem Renderer.realSql_select_eq_inlined {r : Renderer} {d : Document}
    (hr : r.dialect = .generic ∨ r.dialect = .mysql) (h : d.WellQuoted r) :
    (r.select d).realSql = (d.render r).inlined ∧
      count (r.select d).sql = (r.select d).params.length ∧
      (∀ n, Lexeme.named n ∉ lexemes (r.select d).sql) ∧
      (∀ p ∈ (r.select d).params, p.isNamed = false) ∧
      (r.select d).params = d.leaves.flatMap Leaf.params := by
  have hinert := Renderer.isInert_of_dialect hr h.tablePrefix
  have htexts : Leaf.AreInert d.leaves := fun t ht => h.leaves _ ht
  have hwrites := Document.writes_render hinert htexts
  -- only the leaves that may have marks are written one after the other
  have hbound : ∀ l ∈ Leaf.bound d.leaves, l.WellQuoted := fun l hl =>
    h.leaves l (List.mem_filter.1 hl).1
  have hclosed := fun l hl => (hbound l hl).isClosed
  have hbalanced := fun l hl => (hbound l hl).isBalanced
  have hnameless := fun l hl => (hbound l hl).isNameless
  have hparams := Document.params_render hinert htexts
  have hunnamed : ∀ p ∈ (d.render r).params, p.isNamed = false := by
    rw [hparams]
    intro p hp
    obtain ⟨l, hl, hpl⟩ := List.mem_flatMap.1 hp
    exact (h.leaves l hl).isNamed_eq_false hpl
  simp only [Renderer.select, Statement.realSql, Statement.sql_ofFragment,
    Statement.params_ofFragment]
  refine ⟨?_, ?_, hwrites.named_not_mem hclosed hnameless, hunnamed, hparams⟩
  · rw [inlined_eq_fillLexemes]
    exact hwrites.fillLexemes_eq hclosed hbalanced hnameless _
  · rw [hwrites.count_eq_positionalCount hclosed hbalanced]
    exact Params.positionalCount_eq_length hunnamed

/-- A document whose values and raw SQL have quotes, colons and question marks in them. -/
def Document.quotedSample : Document :=
  { tables := ["t"]
    filter := [⟨.or, [.field "a|b" [.compare .eq (.text "it's ?")],
      .raw "c > ? AND d <> '?'" [.positional (.int 3)]]⟩]
    unions := [.query
      { tables := ["u"], filter := [⟨.and, [.field "n" [.compare .like (.text "a:?'c")]]⟩] } true]
    softDelete := some ⟨"e", .isNull⟩ }

/-- The document above under backticks. -/
theorem Renderer.realSql_select_quotedSample :
    (Renderer.select { dialect := .mysql } .quotedSample).realSql =
      "SELECT * FROM `t` WHERE ((`a` = 'it''s ?' OR `b` = 'it''s ?') OR (c > 3 AND d <> '?')) " ++
        "AND `e` IS NULL UNION ALL (SELECT * FROM `u` WHERE `n` LIKE 'a:?''c')" := by
  have h : Document.quotedSample.WellQuoted { dialect := .mysql } := ⟨by decide, by decide⟩
  rw [(Renderer.realSql_select_eq_inlined (.inr rfl) h).1]
  decide +kernel

end SqlSelect
