import SqlSelect.Proofs.Binding

/-!
# Literals in the text of a statement

A text is written as a literal with its quotes doubled, and quoted text is read with backslashes in
mind. The two agree on the texts in which no backslash takes away the quote behind it.

* `Placeholder.Reads m cs n`: read in the mode `m`, the text is its characters, and then the mode
  is `n`. A text that is read like that among other SQL is `Placeholder.IsMarkless`;
* `Value.isSealed`: the values whose literals end with their last quote (`Value.isClosed_literal`),
  and they are without marks (`Value.isMarkless_literal`);
* `Value.lexemes_literal`: a literal in the midst of SQL, and all literals of a statement in the
  places of their marks.
-/

namespace SqlSelect

open Placeholder

namespace Placeholder

/-! ### Texts without marks -/

theorem openLexemes_append (m : Mode) (s t : List Char) :
    openLexemes m (s ++ t) = openLexemes m s ++ openLexemes (after m s) t := by
  induction s generalizing m with
  | nil => rfl
  | cons c s ih => simp [openLexemes, ih]

/-- Read in the mode `m`, the text is its characters, and then the mode is `n`. -/
structure Reads (m : Mode) (cs : List Char) (n : Mode) : Prop where
  after : after m cs = n
  lexemes : openLexemes m cs = cs.map .char

namespace Reads

variable {m n k : Mode} {c : Char} {cs ds : List Char}

theorem nil (m : Mode) : Reads m [] m := ⟨rfl, rfl⟩

theorem cons (hc : step m c = (n, [.char c])) (h : Reads n cs k) : Reads m (c :: cs) k := by
  constructor
  · rw [after_cons, hc]
    exact h.after
  · rw [openLexemes, hc, h.lexemes]
    rfl

theorem append (h : Reads m cs n) (h' : Reads n ds k) : Reads m (cs ++ ds) k := by
  constructor
  · rw [after_append, h.after, h'.after]
  · rw [openLexemes_append, h.lexemes, h.after, h'.lexemes, List.map_append]

end Reads

/-- Is the text its characters, and does it leave what follows as it is? -/
def IsMarkless (s : String) : Prop := Reads .plain s.toList .plain

namespace IsMarkless

variable {s t : String}

theorem of_isInert (h : Text.IsOver isInert s) : IsMarkless s :=
  ⟨after_plain_of_isInert h, openLexemes_plain_of_isInert h⟩

theorem append (hs : IsMarkless s) (ht : IsMarkless t) : IsMarkless (s ++ t) := by
  rw [IsMarkless, String.toList_append]
  exact Reads.append hs ht

/-- A text without marks may stand in front of any text. -/
theorem lexemes_append (hs : IsMarkless s) (t : String) :
    Placeholder.lexemes (s ++ t) = s.toList.map .char ++ Placeholder.lexemes t := by
  rw [Placeholder.lexemes, String.toList_append, lexemesFrom_append, hs.lexemes, hs.after]
  rfl

theorem lexemes_eq (hs : IsMarkless s) : Placeholder.lexemes s = s.toList.map .char := by
  simpa [Placeholder.lexemes, lexemesFrom, finish] using hs.lexemes_append ""

theorem count_eq (hs : IsMarkless s) : count s = 0 := by
  rw [count, hs.lexemes_eq]
  simp [List.count_eq_zero]

end IsMarkless

/-! ### What leaves no quoted text open -/

theorem isOpen_plainStep {c : Char} (hc : c ≠ '\'') : (plainStep c).1.isOpen = true := by
  unfold plainStep
  rw [if_neg hc]
  split
  · rfl
  · split <;> rfl

/-- Only a quote opens quoted text. -/
theorem isOpen_step {m : Mode} (hm : m.isOpen = true) {c : Char} (hc : c ≠ '\'') :
    (step m c).1.isOpen = true := by
  have hplain := isOpen_plainStep hc
  cases m with
  | plain => exact hplain
  | colon =>
    rw [step]
    split
    · rfl
    · split
      · rfl
      · exact hplain
  | name n =>
    rw [step]
    split
    · rfl
    · exact hplain
  | quoted => exact absurd hm (by simp [Mode.isOpen])
  | escaped => exact absurd hm (by simp [Mode.isOpen])

theorem step_quote {m : Mode} (hm : m.isOpen = true) : (step m '\'').1 = .quoted := by
  rw [step_of_isOpen hm (by decide)]
  rfl

theorem isOpen_after {m : Mode} (hm : m.isOpen = true) {cs : List Char} (hcs : '\'' ∉ cs) :
    (after m cs).isOpen = true := by
  induction cs generalizing m with
  | nil => exact hm
  | cons c cs ih =>
    rw [List.mem_cons, not_or] at hcs
    exact ih (isOpen_step hm (Ne.symm hcs.1)) hcs.2

/-- Quotes in pairs open nothing. -/
theorem isOpen_after_doubleQuotes {m : Mode} (hm : m.isOpen = true) (cs : List Char) :
    (after m (Value.doubleQuotes cs)).isOpen = true := by
  induction cs generalizing m with
  | nil => exact hm
  | cons c cs ih =>
    rw [Value.doubleQuotes]
    split
    · rw [after_cons, after_cons, step_quote hm]
      exact ih rfl
    · next hc => exact ih (isOpen_step hm hc)

end Placeholder

/-! ### Sealed values -/

namespace Value

/-- Does no backslash take away the quote behind it, neither one in quoted text nor the one at its
end? A backslash may stand in front already. -/
def isSealedFrom : Bool → List Char → Bool
  | escaped, [] => !escaped
  | escaped, c :: cs =>
    !(escaped && c == '\'') && isSealedFrom (!escaped && c == '\\') cs

/-- Is the literal of the value sealed? Only that of a text may not be. -/
def isSealed : Value → Bool
  | text s => isSealedFrom false s.toList
  | _ => true

/-- The mode inside of quoted text. -/
def quotedMode (escaped : Bool) : Mode := if escaped then .escaped else .quoted

/-- Quoted text goes on behind a character other than a quote. -/
theorem step_quotedMode (escaped : Bool) {c : Char} (hc : c ≠ '\'') :
    step (quotedMode escaped) c = (quotedMode (!escaped && c == '\\'), [.char c]) := by
  cases escaped
  · by_cases hslash : c = '\\' <;> simp [quotedMode, step, hc, hslash]
  · simp [quotedMode, step]

/-- A sealed text is read up to its last quote. -/
theorem reads_doubleQuotes {escaped : Bool} {cs : List Char}
    (h : isSealedFrom escaped cs = true) :
    Reads (quotedMode escaped) (doubleQuotes cs ++ ['\'']) .plain := by
  induction cs generalizing escaped with
  | nil =>
    obtain rfl : escaped = false := by simpa [isSealedFrom] using h
    exact .cons rfl (.nil _)
  | cons c cs ih =>
    rw [isSealedFrom, Bool.and_eq_true] at h
    have hih := ih h.2
    rw [doubleQuotes]
    split
    · next hc =>
      subst hc
      obtain rfl : escaped = false := by simpa using h.1
      -- the first quote leaves the quoted text and the second leads back into it
      exact .cons rfl (.cons rfl hih)
    · next hc => exact .cons (step_quotedMode escaped hc) hih

/-- Outside of quoted text it is the last quote that opens some. -/
theorem after_plain_doubleQuotes (cs : List Char) :
    after .plain (doubleQuotes cs ++ ['\'']) = .quoted := by
  rw [after_append]
  exact step_quote (isOpen_after_doubleQuotes rfl cs)

/-- A text that is not sealed ends too early. -/
theorem not_isOpen_after_doubleQuotes {escaped : Bool} {cs : List Char}
    (h : isSealedFrom escaped cs = false) :
    (after (quotedMode escaped) (doubleQuotes cs ++ ['\''])).isOpen = false := by
  induction cs generalizing escaped with
  | nil =>
    obtain rfl : escaped = true := by simpa [isSealedFrom] using h
    rfl
  | cons c cs ih =>
    rw [isSealedFrom, Bool.and_eq_false_iff] at h
    rw [doubleQuotes]
    split
    · next hc =>
      subst hc
      cases escaped with
      | false => exact ih (h.resolve_left (by simp))
      | true => exact congrArg Mode.isOpen (after_plain_doubleQuotes cs)
    · next hc =>
      rw [List.cons_append, after_cons, step_quotedMode escaped hc]
      exact ih (h.resolve_left (by simp [hc]))

theorem toList_literal_text (s : String) :
    (text s).literal.toList = '\'' :: (doubleQuotes s.toList ++ ['\'']) := by
  simp [literal]

theorem isInert_of_isNumberChar {c : Char} (h : isNumberChar c = true) : isInert c = true := by
  refine isInert_iff.2 ⟨?_, ?_, ?_⟩ <;>
    · rintro rfl
      exact absurd h (by decide)

/-- A value other than a text is written in letters and digits, with a sign or a point. -/
theorem isInert_literal {v : Value} (h : v.text? = none) : Text.IsOver isInert v.literal := by
  cases v with
  | null => decide
  | bool b => cases b <;> decide
  | int n =>
    have hdigits (m : Nat) : Text.IsOver isInert (toString m) := fun c hc => by
      rw [show toString m = m.repr from rfl, Nat.toList_repr] at hc
      exact isInert_of_isNumberChar (isNumberChar_of_mem_toDigits hc)
    rw [literal]
    cases n.toInt with
    | ofNat m => exact hdigits m
    | negSucc m => exact Text.isOver_append.2 ⟨by decide, hdigits (m + 1)⟩
  | float x =>
    refine Text.isOver_ofList.2 fun c hc => ?_
    exact isInert_of_isNumberChar (Binary64.isNumberChar_of_mem_text hc)
  | text s => cases h

/-- A sealed literal has no marks. -/
theorem isMarkless_literal {v : Value} (h : v.isSealed = true) : IsMarkless v.literal := by
  cases v with
  | text s =>
    rw [IsMarkless, toList_literal_text]
    exact .cons rfl (reads_doubleQuotes h)
  | _ => exact .of_isInert (isInert_literal rfl)

/-- The literals that leave no quoted text open are the sealed ones. -/
theorem isClosed_literal (v : Value) : isClosed v.literal = v.isSealed := by
  cases h : v.isSealed with
  | true => exact isClosed_iff.2 (congrArg Mode.isOpen (isMarkless_literal h).after)
  | false =>
    cases v with
    | text s =>
      rw [Bool.eq_false_iff, Ne, isClosed_iff, toList_literal_text]
      exact Bool.eq_false_iff.1 (not_isOpen_after_doubleQuotes h)
    | _ => cases h

/-- A literal is not empty, and it does not begin with a colon. -/
theorem literal_eq_cons (v : Value) : ∃ c cs, v.literal.toList = c :: cs ∧ c ≠ ':' := by
  have hne : v.literal.toList ≠ [] := by
    cases v with
    | null => decide
    | bool b => cases b <;> decide
    | int n =>
      rw [literal, Ne, String.toList_eq_nil_iff]
      cases n.toInt with
      | ofNat m => exact Nat.repr_ne_empty
      | negSucc m => exact fun h => absurd (String.append_eq_empty_iff.1 h).1 (by decide)
    | float x => simpa [literal] using Binary64.text_ne_nil _
    | text s =>
      rw [toList_literal_text]
      exact List.cons_ne_nil _ _
  obtain ⟨c, cs, hcs⟩ := List.exists_cons_of_ne_nil hne
  refine ⟨c, cs, hcs, ?_⟩
  cases htext : v.text? with
  | some s =>
    obtain rfl : v = .text s := by cases v <;> simp_all [text?]
    rw [toList_literal_text] at hcs
    rw [← (List.cons.inj hcs).1]
    decide
  | none => exact (isInert_iff.1 (isInert_literal htext c (hcs ▸ List.mem_cons_self))).2.2

/-- A sealed literal behind a closed text leaves no quoted text open. -/
theorem isClosed_append_literal {a : String} (ha : isClosed a = true) {v : Value}
    (h : v.isSealed = true) : isClosed (a ++ v.literal) = true := by
  cases htext : v.text? with
  | some s =>
    obtain rfl : v = .text s := by cases v <;> simp_all [text?]
    refine isClosed_append ha ((isClosed_literal _).trans h) ?_
    rw [isCalm, toList_literal_text]
    rfl
  | none =>
    have hquote : '\'' ∉ v.literal.toList := fun hc =>
      (isInert_iff.1 (isInert_literal htext _ hc)).1 rfl
    rw [isClosed_iff, String.toList_append, after_append]
    exact isOpen_after (isClosed_iff.1 ha) hquote

/-- A sealed literal in the midst of SQL is its characters, and what stands around it is read as if
it was not there, unless the literal goes on a mark in front of it. -/
theorem lexemes_append_literal_iff {a : String} (ha : isClosed a = true) {v : Value}
    (h : v.isSealed = true) (b : String) :
    lexemes (a ++ v.literal ++ b) = lexemes a ++ v.literal.toList.map .char ++ lexemes b ↔
      runsOn a v.literal = false := by
  obtain ⟨c, cs, hcs, hcolon⟩ := literal_eq_cons v
  have hhead : (v.literal ++ b).toList.head? = v.literal.toList.head? := by simp [hcs]
  have hruns : runsOn a (v.literal ++ b) = runsOn a v.literal := by rw [runsOn, runsOn, hhead]
  rw [← hruns, ← lexemes_append_iff ha (by rw [hhead, hcs]; simpa using hcolon),
    (isMarkless_literal h).lexemes_append, String.append_assoc, List.append_assoc]

end Value

/-! ### Documents -/

/-- Is the leaf an inert text or a sealed value? -/
def Leaf.IsSealed : Leaf → Prop
  | text s => Text.IsOver isInert s
  | value v => v.isSealed = true
  | _ => False

instance : DecidablePred Leaf.IsSealed
  | .text s => inferInstanceAs (Decidable (Text.IsOver isInert s))
  | .value v => inferInstanceAs (Decidable (v.isSealed = true))
  | .operand _ => inferInstanceAs (Decidable False)
  | .raw _ _ => inferInstanceAs (Decidable False)

theorem Leaf.IsSealed.wellQuoted {l : Leaf} (h : l.IsSealed) : l.WellQuoted := by
  cases l with
  | text s => exact h
  | value v => trivial
  | operand sql => exact h.elim
  | raw sql binds => exact h.elim

/-- With sealed values in place a fragment has no marks. -/
theorem Fragment.Writes.isMarkless_inlined {ls : List Leaf} {f : Fragment} (h : Writes ls f)
    (hs : ∀ l ∈ ls, l.IsSealed) : IsMarkless f.inlined := by
  induction h with
  | nil => exact .of_isInert Text.isOver_empty
  | text ht _ ih => exact (IsMarkless.of_isInert ht).append (ih hs)
  | value v =>
    have hv : v.isSealed = true := hs _ List.mem_cons_self
    simpa [Piece.inlined] using Value.isMarkless_literal hv
  | operand sql _ _ => exact (hs _ List.mem_cons_self).elim
  | raw sql binds _ _ => exact (hs _ List.mem_cons_self).elim
  | append _ _ _ ihf ihg =>
    rw [List.forall_mem_append] at hs
    rw [inlined_append]
    exact (ihf hs.1).append (ihg hs.2)

namespace Document

variable {r : Renderer} {d : Document}

/-- The values of a document stand in the places of their marks, whatever named parameters there
are. -/
theorem realSql_withParams_eq_inlined (hr : r.IsInert) (h : ∀ l ∈ d.leaves, l.WellQuoted)
    {ps : List Param} (hps : ∀ p ∈ ps, p.isNamed = true) :
    ((r.select d).withParams ps).realSql = (d.render r).inlined := by
  have hwrites := writes_render hr fun t ht => h _ ht
  have hbound : ∀ l ∈ Leaf.bound d.leaves, l.WellQuoted := fun l hl =>
    h l (List.mem_filter.1 hl).1
  have hunnamed : Params.unnamed ps = [] := by
    have hfilter : ps.filter (!·.isNamed) = [] :=
      List.filter_eq_nil_iff.2 fun p hp => by simp [hps p hp]
    rw [Params.unnamed, hfilter, List.map_nil]
  simp only [Renderer.select, Statement.realSql, Statement.sql_withParams,
    Statement.params_withParams, Statement.sql_ofFragment, Statement.params_ofFragment]
  rw [inlined_eq_fillLexemes, Params.unnamed_append, hunnamed, List.append_nil]
  exact hwrites.fillLexemes_eq (fun l hl => (hbound l hl).isClosed)
    (fun l hl => (hbound l hl).isBalanced) (fun l hl => (hbound l hl).isNameless) _

/-- With sealed values in place a statement has no marks. -/
theorem isMarkless_realSql (hr : r.IsInert) (h : ∀ l ∈ d.leaves, l.IsSealed) {ps : List Param}
    (hps : ∀ p ∈ ps, p.isNamed = true) : IsMarkless ((r.select d).withParams ps).realSql := by
  rw [realSql_withParams_eq_inlined hr (fun l hl => (h l hl).wellQuoted) hps]
  refine (writes_render hr fun t ht => h _ ht).isMarkless_inlined fun l hl => ?_
  exact h l (List.mem_filter.1 hl).1

end Document

/-- Literals are read as they are written. A sealed literal behind SQL that leaves no quoted text
open leaves none open either, and the marks of the whole are those of what stands around the
literal, unless the literal goes on a mark in front of it. So a statement of inert texts and sealed
values has no marks when its values are in place, whatever the values say. -/
theorem Value.lexemes_literal :
    (∀ (v : Value) (a : String), v.isSealed = true → isClosed a = true →
      isClosed (a ++ v.literal) = true ∧ ∀ b : String,
        (lexemes (a ++ v.literal ++ b) = lexemes a ++ v.literal.toList.map .char ++ lexemes b ↔
          runsOn a v.literal = false)) ∧
      ∀ (r : Renderer) (d : Document) (ps : List Param),
        (r.dialect = .generic ∨ r.dialect = .mysql) → Text.IsOver isInert r.tablePrefix →
        (∀ l ∈ d.leaves, l.IsSealed) → (∀ p ∈ ps, p.isNamed = true) →
        count ((r.select d).withParams ps).realSql = 0 ∧
          isClosed ((r.select d).withParams ps).realSql = true ∧
          lexemes ((r.select d).withParams ps).realSql =
            ((r.select d).withParams ps).realSql.toList.map .char := by
  refine ⟨fun v a hv ha => ⟨isClosed_append_literal ha hv, lexemes_append_literal_iff ha hv⟩,
    fun r d ps hdialect hprefix hd hps => ?_⟩
  have h := Document.isMarkless_realSql (Renderer.isInert_of_dialect hdialect hprefix) hd hps
  exact ⟨h.count_eq, isClosed_iff.2 (congrArg Mode.isOpen h.after), h.lexemes_eq⟩

/-- Values with quotes, marks and a pair of backslashes in them. -/
def Document.sealedSample : Document :=
  { tables := ["t"]
    filter := [⟨.and, [.field "a|b" [.compare .eq (.text "it's ?")],
      .field "c" [.compare .neq (.text "\\\\':n")]]⟩] }

/-- A sealed literal behind a named mark and a space, and a statement with sealed values. -/
theorem Value.lexemes_literal_sealedSample :
    lexemes ("a = :n AND b = " ++ (text "\\\\'s ?").literal ++ " OR c = ?") =
        lexemes "a = :n AND b = " ++ (text "\\\\'s ?").literal.toList.map .char ++
          lexemes " OR c = ?" ∧
      count ((Renderer.select {} .sealedSample).withParams [.named "n" .null]).realSql = 0 := by
  obtain ⟨hliteral, hdocument⟩ := Value.lexemes_literal
  have hpart := hliteral (text "\\\\'s ?") "a = :n AND b = " (by decide) (by decide)
  refine ⟨(hpart.2 " OR c = ?").2 (by decide), (hdocument {} .sealedSample _ (.inl rfl) ?_ ?_ ?_).1⟩
  · exact Text.isOver_empty
  · decide
  · decide

/-- A backslash as a value, and a question mark behind it. -/
def Document.backslashSample : Document :=
  { tables := ["t"]
    filter := [⟨.and, [.field "a" [.compare .eq (.text "\\")],
      .field "b" [.compare .eq (.text "?")]]⟩] }

/-- Digits go on the name of a mark in front of them, and a lone backslash takes the last quote of
its literal away: the question mark of the next value is read as a mark. -/
theorem Value.lexemes_not_append_literal :
    (isClosed ":n" = true ∧
      lexemes (":n" ++ (int 1).literal ++ " x") ≠
        lexemes ":n" ++ (int 1).literal.toList.map .char ++ lexemes " x") ∧
      (isClosed "a = " = true ∧ isClosed ("a = " ++ (text "\\").literal) = false) ∧
      (Renderer.select {} .backslashSample).realSql =
        "SELECT * FROM t WHERE a = '\\' AND b = '?'" ∧
      count (Renderer.select {} .backslashSample).realSql = 1 := by
  decide +kernel

end SqlSelect
