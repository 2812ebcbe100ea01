import SqlSelect.Proofs.Binding

/-!
# Pieces that are read each by itself

A statement is read from the left, and what is known of the text so far goes over from one piece to
the next. Where each piece begins and ends in plain text, nothing goes over.

* `Piece.IsSound`: such a piece, with as many positional marks as it has parameters;
* `Fragment.Writes.isSound`: the pieces of a well-quoted document are sound;
* `Fragment.fillLexemes_of_isSound`: in a fragment of sound pieces each value comes to its own mark;
* `Placeholder.fillLexemes_append_drop`: in general the marks of a text take the values that they
  need, and the others are left for the text behind it;
* `Placeholder.fillLexemes_behind_iff`: the texts behind which a value still comes to its own mark.
-/

namespace SqlSelect

open Placeholder

/-- Among parameters without a name none is found. -/
theorem Params.get?_eq_none {ps : List Param} (hps : ∀ p ∈ ps, p.isNamed = false)
    (name : String) : get? ps name = none := by
  rw [get?, List.find?_eq_none]
  intro p hp hname
  have hsome : p.name = some name := by simpa using hname
  simpa [Param.isNamed, hsome] using hps p hp

namespace Placeholder

/-- Without a colon no mark has a name, so that nothing is held back at the end. -/
theorem finish_after_of_not_mem {m : Mode} (hm : finish m = []) {cs : List Char} (hcs : ':' ∉ cs) :
    finish (after m cs) = [] := by
  induction cs generalizing m with
  | nil => exact hm
  | cons c cs ih =>
    rw [List.mem_cons, not_or] at hcs
    refine ih ?_ hcs.2
    cases m with
    | plain =>
      simp only [step, plainStep, if_neg (Ne.symm hcs.1)]
      split
      · rfl
      · split <;> rfl
    | quoted =>
      simp only [step]
      split
      · rfl
      · split <;> rfl
    | escaped => rfl
    | colon => cases hm
    | name n => cases hm

/-- A closed text without a colon is left as it was entered. -/
theorem after_plain_of_isClosed {s : String} (hs : isClosed s = true) (hcolon : ':' ∉ s.toList) :
    after .plain s.toList = .plain := by
  have hopen := isClosed_iff.1 hs
  have hfinish : finish (after .plain s.toList) = [] := finish_after_of_not_mem rfl hcolon
  cases h : after .plain s.toList <;> simp_all [Mode.isOpen, finish]

/-- Behind a closed text a text that goes on no mark is read as if it stood alone. -/
theorem after_append_of_isClosed {s t : String} (hs : isClosed s = true) (ht : isCalm t = true)
    (hne : t ≠ "") : after .plain (s ++ t).toList = after .plain t.toList := by
  obtain ⟨c, cs, hcs⟩ := List.exists_cons_of_ne_nil (mt String.toList_eq_nil_iff.1 hne)
  have hc : isNameChar c = false ∧ c ≠ ':' := by simpa [isCalm, hcs] using ht
  rw [String.toList_append, after_append, hcs, after_cons, after_cons,
    step_of_isOpen (isClosed_iff.1 hs) hc]
  rfl

/-- Parameters without a name matter for their values only. -/
theorem fillLexemes_of_unnamed {ps : List Param} (hps : ∀ p ∈ ps, p.isNamed = false)
    (vs : List Value) (ls : List Lexeme) : fillLexemes ps vs ls = fillLexemes [] vs ls := by
  induction ls generalizing vs with
  | nil => simp [fillLexemes]
  | cons l ls ih =>
    cases l with
    | char c => cases vs <;> simp [fillLexemes, ih]
    | positional => cases vs <;> simp [fillLexemes, ih]
    | named n =>
      have hnone : Params.get? [] (String.ofList n) = none := rfl
      cases vs <;> simp [fillLexemes, ih, Params.get?_eq_none hps, hnone]

/-- Without any parameter a text stays as it is. -/
theorem fillLexemes_nil_nil (ls : List Lexeme) :
    fillLexemes [] [] ls = String.ofList (ls.flatMap Lexeme.write) := by
  induction ls with
  | nil => rfl
  | cons l ls ih =>
    cases l <;> simp [fillLexemes, ih, Lexeme.write, Params.get?, String.append_assoc]

/-- No values are left for a text behind the last mark that has one. -/
theorem fillLexemes_lexemes (s : String) : fillLexemes [] [] (lexemes s) = s := by
  have hwrite : (lexemes s).flatMap Lexeme.write = s.toList := write_lexemesFrom .plain s.toList
  rw [fillLexemes_nil_nil, hwrite, String.ofList_toList]

/-- The marks of the first text take the values that they need, and the others are left. -/
theorem fillLexemes_append_drop (ps : List Param) (vs : List Value) (ls ms : List Lexeme) :
    fillLexemes ps vs (ls ++ ms) =
      fillLexemes ps vs ls ++ fillLexemes ps (vs.drop (ls.count .positional)) ms := by
  induction ls generalizing vs with
  | nil => simp [fillLexemes]
  | cons l ls ih =>
    cases l with
    | char c => cases vs <;> simp [fillLexemes, ih, String.append_assoc]
    | positional => cases vs <;> simp [fillLexemes, ih, String.append_assoc]
    | named n => cases vs <;> simp [fillLexemes, ih, String.append_assoc]

/-- A value that is bound behind a text comes to its own mark just if the text has no mark itself
and leaves no quoted text open. -/
theorem fillLexemes_behind_iff {t : String} (ht : Text.IsOver isInert t) (hcalm : isCalm t = true)
    (hne : t ≠ "") (hslash : '\\' ∉ t.toList) {v : Value} {c : Char}
    (hv : v.literal.toList.getLast? = some c) (hc : c ≠ '?') (s : String) :
    fillLexemes [] [v] (lexemes (s ++ (t ++ "?"))) = s ++ (t ++ v.literal) ↔
      isClosed s = true ∧ count s = 0 := by
  -- else the mark is left at the end
  have hleft : ∀ u, u ++ (t ++ "?") ≠ s ++ (t ++ v.literal) := fun u h => by
    have hlast := congrArg (fun w => w.toList.getLast?) h
    have hmark : '?' = c := by simpa [List.getLast?_append, hv] using hlast
    exact hc hmark.symm
  have hbehind : fillLexemes [] [v] (lexemes (t ++ "?")) = t ++ v.literal := by
    have hmark : lexemes "?" = [.positional] := by decide
    rw [lexemes_append_of_isInert ht, fillLexemes_chars_append, hmark]
    simp [fillLexemes]
  cases hclosed : isClosed s with
  | false =>
    have hopen : (after .plain s.toList).isOpen = false := by
      rw [Bool.eq_false_iff, Ne, ← isClosed_iff, hclosed]
      decide
    have hquote : '\'' ∉ t.toList := fun h => (isInert_iff.1 (ht _ h)).1 rfl
    have hchars : ∀ vs, fillLexemes [] vs ((t ++ "?").toList.map .char) = t ++ "?" := fun vs => by
      have hfill := fillLexemes_chars_append [] vs (t ++ "?").toList []
      simpa [fillLexemes] using hfill
    rw [lexemes, String.toList_append, lexemesFrom_append,
      lexemesFrom_of_not_isOpen hopen (by simp [hquote, hslash]), fillLexemes_append_drop, hchars]
    simp [hleft]
  | true =>
    rw [lexemes_append hclosed (isCalm_append_of_ne_empty hcalm hne _)]
    cases hcount : count s with
    | zero =>
      have hfill := fillLexemes_append [] [] [v] (lexemes s) (lexemes (t ++ "?")) hcount.symm
      rw [fillLexemes_lexemes, hbehind] at hfill
      simpa using hfill
    | succ n =>
      have hcount : (lexemes s).count .positional = n + 1 := hcount
      rw [fillLexemes_append_drop, hcount, List.drop_succ_cons, List.drop_nil, fillLexemes_lexemes]
      simp [hleft]

end Placeholder

/-- Read by itself, the piece begins and ends in plain text. It has as many positional marks as it
has parameters, and none of them has a name. -/
structure Piece.IsSound (p : Piece) : Prop where
  after : Placeholder.after .plain p.sql.toList = .plain
  count : Placeholder.count p.sql = p.params.length
  unnamed : ∀ q ∈ p.params, q.isNamed = false

namespace Piece.IsSound

variable {p : Piece} {s : String}

theorem of_isInert (h : Text.IsOver isInert s) : IsSound (.text s) :=
  ⟨after_plain_of_isInert h, count_of_isInert h, by simp [params]⟩

theorem mark (v : Value) : IsSound (.mark v) :=
  have hafter : Placeholder.after .plain "?".toList = .plain := by decide
  have hcount : Placeholder.count "?" = 1 := by decide
  ⟨hafter, hcount, by simp [params]⟩

/-- What follows a sound piece is read as if it stood alone. -/
theorem lexemes_append (h : p.IsSound) (t : String) :
    lexemes (p.sql ++ t) = lexemes p.sql ++ lexemes t := by
  have hopen : lexemes p.sql = openLexemes .plain p.sql.toList := by
    rw [lexemes, lexemesFrom_eq, h.after]
    exact List.append_nil _
  rw [hopen, lexemes, String.toList_append, lexemesFrom_append, h.after]
  rfl

/-- The values of a sound piece stand in the places of its marks. -/
theorem fillLexemes_eq (h : p.IsSound) :
    fillLexemes [] (Params.unnamed p.params) (lexemes p.sql) = p.inlined := by
  cases p with
  | text s => exact fillLexemes_lexemes s
  | mark v =>
    have hmark : lexemes "?" = [.positional] := by decide
    simp [Piece.sql, hmark, params, Params.unnamed, fillLexemes, inlined]
  | raw sql binds =>
    have hbinds : ∀ q ∈ binds, q.isNamed = false := h.unnamed
    rw [inlined, inlined_eq_fillLexemes, fillLexemes_of_unnamed hbinds]
    rfl

end Piece.IsSound

namespace Fragment

variable {f : Fragment} {ls : List Leaf}

/-- In a fragment of sound pieces the values stand in the places of their own marks, whatever text
is behind it. -/
theorem fillLexemes_of_isSound (hf : ∀ p ∈ f, p.IsSound) (t : String) :
    fillLexemes [] (Params.unnamed f.params) (lexemes (f.sql ++ t)) = f.inlined ++ t := by
  induction f with
  | nil => simpa using fillLexemes_lexemes t
  | cons p f ih =>
    obtain ⟨hp, hf⟩ := List.forall_mem_cons.1 hf
    have hlength : (Params.unnamed p.params).length = (lexemes p.sql).count .positional :=
      (Params.positionalCount_eq_length hp.unnamed).trans hp.count.symm
    rw [sql_cons, params_cons, inlined_cons, String.append_assoc, hp.lexemes_append,
      Params.unnamed_append, fillLexemes_append _ _ _ _ _ hlength, hp.fillLexemes_eq, ih hf,
      String.append_assoc]

/-- The pieces that are written for well-quoted leaves are sound. -/
theorem Writes.isSound (h : Writes ls f) (hls : ∀ l ∈ ls, l.WellQuoted) : ∀ p ∈ f, p.IsSound := by
  induction h with
  | nil => simp
  | text ht _ ih => exact List.forall_mem_cons.2 ⟨.of_isInert ht, ih hls⟩
  | value v =>
    rw [List.forall_mem_singleton]
    exact .mark v
  | operand sql ht _ =>
    have hsql : Text.IsOver isInert sql := hls _ List.mem_cons_self
    rw [List.forall_mem_singleton]
    exact .of_isInert (Text.isOver_append.2 ⟨ht, hsql⟩)
  | raw sql binds ht _ =>
    obtain ⟨hcolon, hclosed, hcount, hbinds⟩ := hls _ List.mem_cons_self
    refine List.forall_mem_cons.2 ⟨.of_isInert ht, ?_⟩
    rw [List.forall_mem_singleton]
    exact ⟨after_plain_of_isClosed hclosed hcolon, hcount, hbinds⟩
  | append _ _ _ ihf ihg =>
    rw [List.forall_mem_append] at hls ⊢
    exact ⟨ihf hls.1, ihg hls.2⟩

end Fragment

end SqlSelect
