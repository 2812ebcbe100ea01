import SqlSelect.Criterion
import SqlSelect.Proofs.Scanning.Lossless

/-!
# Marks of a fragment in its place

Raw SQL is checked by itself when it is declared: it must have as many marks as it is given binds.
Later it stands in a statement, between other texts. It has the same marks there if no text leaves
quoted text open and no text goes on a mark at the end of the one in front of it.

* `Token.marks`: the marks among tokens. They are those of the lexemes (`marks_gather`);
* `marks_append`: the marks of two texts, one behind the other;
* `marks_in_place`: the marks of a fragment between two texts, and what checking it alone is worth.
-/

namespace SqlSelect

namespace Placeholder

/-- The marks among tokens. -/
def Token.marks (ts : List Token) : List Token := ts.filter Token.isMark

/-- The mark that a lexeme is. -/
def Lexeme.mark? : Lexeme → Option Token
  | char _ => none
  | positional => some .positional
  | named n => some (.named (String.ofList n))

theorem marks_pending (p : List Char) : Token.marks (pending p) = [] :=
  List.filter_eq_nil_iff.2 fun t ht => by simp [isMark_eq_false_of_mem_pending ht]

/-- Gathering characters to texts leaves the marks as they are. -/
theorem marks_gather (p : List Char) (ls : List Lexeme) :
    Token.marks (gather p ls) = ls.filterMap Lexeme.mark? := by
  have hmark : ∀ (q : List Char) (m : Token) (ts : List Token), m.isMark = true →
      Token.marks (pending q ++ m :: ts) = m :: Token.marks ts := by
    intro q m ts hm
    rw [Token.marks, List.filter_append, List.filter_cons_of_pos hm]
    exact congrArg (· ++ _) (marks_pending q)
  induction ls generalizing p with
  | nil => exact marks_pending p
  | cons l ls ih =>
    cases l with
    | char c => exact ih (c :: p)
    | positional => exact (hmark p .positional _ rfl).trans (congrArg _ (ih []))
    | named n => exact (hmark p (.named (String.ofList n)) _ rfl).trans (congrArg _ (ih []))

/-- The marks that are counted are the positional ones. -/
theorem count_marks (s : String) : (Token.marks (tokens s)).count .positional = count s := by
  have hcount : ∀ ls : List Lexeme,
      (ls.filterMap Lexeme.mark?).count .positional = ls.count .positional := by
    intro ls
    induction ls with
    | nil => rfl
    | cons l ls ih => cases l <;> simp [List.filterMap_cons, Lexeme.mark?, ih]
  rw [tokens, marks_gather, hcount, count]

/-- Behind a closed text a text that goes on no mark has the marks that it has alone. -/
theorem marks_append {s t : String} (hs : isClosed s = true) (ht : isCalm t = true) :
    Token.marks (tokens (s ++ t)) = Token.marks (tokens s) ++ Token.marks (tokens t) := by
  simp only [tokens, marks_gather, lexemes_append hs ht, List.filterMap_append]

/-- A name goes on over the seam, two colons are no mark, and quoted text hides one. -/
example :
    Token.marks (tokens (":a" ++ "b")) ≠ Token.marks (tokens ":a") ++ Token.marks (tokens "b") ∧
    Token.marks (tokens (":" ++ ":b")) ≠ Token.marks (tokens ":") ++ Token.marks (tokens ":b") ∧
    Token.marks (tokens ("'" ++ "?")) ≠ Token.marks (tokens "'") ++ Token.marks (tokens "?") := by
  decide

/-- A text that is not left in quoted text is closed. -/
theorem isClosed_of_quoted_last {s : String} (hs : (Loop.last s).quoted = false) :
    isClosed s = true := by
  simpa [Loop.quoted_last] using hs

/-- The marks of a fragment in its place are those that it has alone, if the text in front of it and
the fragment are not left in quoted text, and neither the fragment nor the text behind it begins
with a letter, a digit, `_` or a colon. A colon at an end does no harm then. So the marks of the
whole can be counted part by part, and the binds of the fragment are as many as the marks that it
adds just if it was accepted with them. -/
theorem marks_in_place {front fragment back : String} (hfront : (Loop.last front).quoted = false)
    (hfragment : (Loop.last fragment).quoted = false) (hcalm : isCalm fragment = true)
    (hback : isCalm back = true) :
    Token.marks (tokens (front ++ fragment ++ back)) =
        Token.marks (tokens front) ++ Token.marks (tokens fragment) ++ Token.marks (tokens back) ∧
      count (front ++ fragment ++ back) = count front + count fragment + count back ∧
      ∀ binds, checkBinds fragment binds = .ok () ↔
        count (front ++ fragment ++ back) =
          count front + Params.positionalCount binds + count back := by
  have hfront := isClosed_of_quoted_last hfront
  have hfragment := isClosed_of_quoted_last hfragment
  have hmarks : Token.marks (tokens (front ++ fragment ++ back)) =
      Token.marks (tokens front) ++ Token.marks (tokens fragment) ++ Token.marks (tokens back) := by
    rw [marks_append (isClosed_append hfront hfragment hcalm) hback, marks_append hfront hcalm]
  have hcount : count (front ++ fragment ++ back) = count front + count fragment + count back := by
    rw [← count_marks, hmarks, List.count_append, List.count_append, count_marks, count_marks,
      count_marks]
  refine ⟨hmarks, hcount, fun binds => ?_⟩
  rw [checkBinds_eq_ok_iff, hcount]
  omega

/-- A fragment behind a colon, with a cast, a quoted mark and a named mark. -/
theorem marks_in_place_castSample :
    let front := "x = ? AND :"
    let fragment := "(é::int = ':?' OR b = :b OR c = ?"
    let back := ") AND y = ?"
    ((Loop.last front).quoted = false ∧ (Loop.last fragment).quoted = false ∧
      isCalm fragment = true ∧ isCalm back = true) ∧
    Token.marks (tokens (front ++ fragment ++ back)) =
      [.positional, .named "b", .positional, .positional] ∧
    count (front ++ fragment ++ back) = 3 ∧
    ∀ binds, checkBinds fragment binds = .ok () ↔ 3 = 1 + Params.positionalCount binds + 1 := by
  intro front fragment back
  have hfront : (Loop.last front).quoted = false := (Loop.quoted_last front).trans (by decide)
  have hfragment : (Loop.last fragment).quoted = false :=
    (Loop.quoted_last fragment).trans (by decide)
  have hcalm : isCalm fragment = true := by decide
  have hback : isCalm back = true := by decide
  obtain ⟨hmarks, hcount, hbinds⟩ := marks_in_place hfront hfragment hcalm hback
  have hthree : count (front ++ fragment ++ back) = 3 := hcount.trans (by decide)
  have hone : count front = 1 ∧ count back = 1 := by decide
  refine ⟨⟨hfront, hfragment, hcalm, hback⟩, hmarks.trans (by decide), hthree, fun binds => ?_⟩
  rw [hbinds binds, hthree, hone.1, hone.2]

end Placeholder

end SqlSelect
