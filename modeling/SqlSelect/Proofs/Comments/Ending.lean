import SqlSelect.Declaration
import SqlSelect.Proofs.Text.Trimmed
import SqlSelect.Render

/-!
# Where a comment ends

The closing marks of a comment text are taken out of it before it is written as a comment, from the
left and in one pass. Two characters that stood around such a mark meet when it is gone, and may be
a closing mark themselves.

* `Chars.nested a b n`: the pair `a b` with `n` further pairs between its two characters;
* `Chars.infix_removePair_iff`: after the pass the pair is left just if it stood around others;
* `ClosesEarly`: the body of a comment holds a closing mark in front of the one that is written
  behind it;
* `Document.closesEarly_comment_iff`: which comment texts are closed early.
-/

namespace SqlSelect

namespace Chars

/-! ### Pairs around pairs -/

/-- The pairs `a b`, as many as `n`, one behind the other. -/
def pairs (a b : Char) (n : Nat) : List Char := (List.replicate n [a, b]).flatten

/-- The pair `a b` with `n` further ones between its two characters. -/
def nested (a b : Char) (n : Nat) : List Char := a :: (pairs a b n ++ [b])

variable {a b : Char}

@[simp] theorem pairs_zero (a b : Char) : pairs a b 0 = [] := rfl

@[simp] theorem pairs_succ (a b : Char) (n : Nat) : pairs a b (n + 1) = a :: b :: pairs a b n := by
  simp [pairs, List.replicate_succ]

/-- After the pass a text begins with the second character of the pair just if pairs, and then this
character, stood at its front. -/
theorem prefix_removePair_iff (hab : a ≠ b) (cs : List Char) :
    [b] <+: removePair a b cs ↔ ∃ n, pairs a b n ++ [b] <+: cs := by
  fun_induction removePair a b cs with
  | case1 => simp
  | case2 c =>
    constructor
    · exact fun h => ⟨0, h⟩
    · rintro ⟨_ | n, h⟩
      · exact h
      · simp at h
  | case3 c d cs hpair ih =>
    obtain ⟨rfl, rfl⟩ : c = a ∧ d = b := by simpa using hpair
    rw [ih]
    constructor
    · rintro ⟨n, h⟩
      exact ⟨n + 1, by simpa using h⟩
    · rintro ⟨_ | n, h⟩
      · exact absurd (List.cons_prefix_cons.1 h).1.symm hab
      · exact ⟨n, by simpa using h⟩
  | case4 c d cs hpair _ =>
    have hpair : ¬(c = a ∧ d = b) := by simpa using hpair
    rw [List.cons_prefix_cons]
    constructor
    · rintro ⟨rfl, -⟩
      exact ⟨0, by simp⟩
    · rintro ⟨_ | n, h⟩
      · exact ⟨(List.cons_prefix_cons.1 h).1, List.nil_prefix⟩
      · simp only [pairs_succ, List.cons_append, List.cons_prefix_cons] at h
        exact absurd ⟨h.1.symm, h.2.1.symm⟩ hpair

/-- Taking out the pair leaves it in the text just if it stood there around others. -/
theorem infix_removePair_iff (hab : a ≠ b) (cs : List Char) :
    [a, b] <:+: removePair a b cs ↔ ∃ n, nested a b (n + 1) <:+: cs := by
  fun_induction removePair a b cs with
  | case1 => simp [nested]
  | case2 c => simp [nested, List.infix_cons_iff]
  | case3 c d cs hpair ih =>
    obtain ⟨rfl, rfl⟩ : c = a ∧ d = b := by simpa using hpair
    rw [ih]
    refine exists_congr fun n => ?_
    -- no pair around others begins with the pair itself
    have hfront : ¬ nested c d (n + 1) <+: c :: d :: cs := fun h => by
      simp only [nested, pairs_succ, List.cons_append, List.cons_prefix_cons] at h
      exact hab h.2.1
    have hsecond : ¬ nested c d (n + 1) <+: d :: cs := fun h =>
      hab (List.cons_prefix_cons.1 h).1
    rw [List.infix_cons_iff, List.infix_cons_iff]
    simp [hfront, hsecond]
  | case4 c d cs hpair ih =>
    have hpair : ¬(c = a ∧ d = b) := by simpa using hpair
    rw [List.infix_cons_iff, List.cons_prefix_cons, prefix_removePair_iff hab, ih]
    have hfront : (a = c ∧ ∃ n, pairs a b n ++ [b] <+: d :: cs) ↔
        ∃ n, nested a b (n + 1) <+: c :: d :: cs := by
      constructor
      · rintro ⟨rfl, _ | n, h⟩
        · exact absurd ⟨rfl, (List.cons_prefix_cons.1 h).1.symm⟩ hpair
        · exact ⟨n, List.cons_prefix_cons.2 ⟨rfl, h⟩⟩
      · rintro ⟨n, h⟩
        obtain ⟨rfl, htail⟩ := List.cons_prefix_cons.1 h
        exact ⟨rfl, n + 1, htail⟩
    rw [hfront, ← exists_or]
    exact exists_congr fun n => List.infix_cons_iff.symm

/-! ### Trimming -/

variable {as cs : List Char}

/-- Taking white space off the front loses no part that does not begin with it. -/
theorem infix_dropWhile_iff (ha : isWhiteSpace a = false) :
    a :: as <:+: cs.dropWhile isWhiteSpace ↔ a :: as <:+: cs := by
  induction cs with
  | nil => rfl
  | cons c cs ih =>
    rw [List.dropWhile_cons]
    split
    · next hc =>
      have hfront : ¬ a :: as <+: c :: cs := fun h => by
        rw [(List.cons_prefix_cons.1 h).1, hc] at ha
        exact absurd ha (by decide)
      rw [ih, List.infix_cons_iff (a := c)]
      simp [hfront]
    · rfl

/-- Trimming loses no pair of characters that are no white space. -/
theorem infix_trim_iff (ha : isWhiteSpace a = false) (hb : isWhiteSpace b = false) :
    [a, b] <:+: trim cs ↔ [a, b] <:+: cs := by
  have hreverse : [a, b] = [b, a].reverse := rfl
  rw [trim, trimEnd, hreverse, List.reverse_infix, infix_dropWhile_iff hb, ← List.reverse_infix,
    List.reverse_reverse, ← hreverse, infix_dropWhile_iff ha]

end Chars

/-! ### Comments -/

/-- With its own closing mark behind it, the body of a comment has a closing mark that more
follows. -/
def ClosesEarly (body : String) : Prop :=
  ∃ before behind, body.toList ++ " */".toList = before ++ '*' :: '/' :: behind ∧ behind ≠ []

/-- No closing mark begins in the body and ends behind it. -/
theorem closesEarly_iff {body : String} : ClosesEarly body ↔ ['*', '/'] <:+: body.toList := by
  constructor
  · rintro ⟨before, behind, h, hne⟩
    have hsplit : (body.toList ++ [' '] ++ ['*']) ++ ['/'] =
        (before ++ '*' :: '/' :: behind.dropLast) ++ [behind.getLast hne] := by
      simpa [List.dropLast_append_getLast hne] using h
    have hinfix : ['*', '/'] <:+: body.toList ++ [' '] ++ ['*'] :=
      ⟨before, behind.dropLast, by simpa using (List.append_inj' hsplit rfl).1.symm⟩
    -- neither of the two characters in between ends the pair
    have hends : ∀ (cs : List Char) (c : Char), c ≠ '/' → ¬ ['*', '/'] <:+ cs ++ [c] := by
      rintro cs c hc ⟨front, hfront⟩
      have hlast := congrArg List.getLast? hfront
      exact hc (by simpa using hlast.symm)
    rw [List.infix_concat_iff, List.infix_concat_iff] at hinfix
    rcases hinfix with h | h | h
    · exact absurd h (hends _ _ (by decide))
    · exact absurd h (hends _ _ (by decide))
    · exact h
  · rintro ⟨before, behind, h⟩
    refine ⟨before, behind ++ " */".toList, ?_, by simp⟩
    rw [← h]
    simp

namespace Document

/-- What a statement is made of, up to the comment at its end. -/
def front (r : Renderer) (d : Document) : Fragment :=
  Layout.fill (d.renderClause r) Layout.select.dropLast

/-- A statement ends with its own comment. -/
theorem render_eq_front (r : Renderer) (d : Document) :
    d.render r = d.front r ++ [.text (d.clauseText r .comment)] := by
  have hlayout : Layout.select = Layout.select.dropLast ++ [.slot .comment] := rfl
  rw [render_eq_fill, hlayout, Layout.fill, List.flatMap_append, List.flatMap_singleton]
  rfl

theorem sql_render_eq_front (r : Renderer) (d : Document) :
    (d.render r).sql = (d.front r).sql ++ d.clauseText r .comment := by
  rw [render_eq_front, Fragment.sql_append]
  simp [Piece.sql]

/-- Which comment texts are closed early. A text that is declared as the comment of a document is
written at the end of its statement, between an opening and a closing mark, unless it is empty. What
is left of it holds a closing mark of its own just if the text had closing marks between the two
characters of another. -/
theorem closesEarly_comment_iff (d : Document) (r : Renderer) (pre ownTable text : String) :
    let e := d.declare pre ownTable (.comment text)
    (∃ front, (r.select e).sql = front ++ e.clauseText r .comment) ∧
      e.clauseText r .comment = (if text = "" then "" else " /* " ++ commentBody text ++ " */") ∧
      (ClosesEarly (commentBody text) ↔ ∃ n, Chars.nested '*' '/' (n + 1) <:+: text.toList) := by
  intro e
  have hdeclared : e.comment = some text := rfl
  refine ⟨?_, by rw [clauseText, hdeclared], ?_⟩
  · rw [Renderer.select, Statement.sql_ofFragment]
    exact ⟨_, e.sql_render_eq_front r⟩
  · rw [closesEarly_iff, commentBody, Text.toList_trim, String.toList_ofList,
      Chars.infix_trim_iff (by decide) (by decide), Chars.infix_removePair_iff (by decide)]

/-- The marks around the one that is taken out close the comment. -/
example : (Renderer.select {} { tables := ["t"], comment := some "a **// DROP" }).sql =
    "SELECT * FROM t /* a */ DROP */" := by decide +kernel

end Document

end SqlSelect
