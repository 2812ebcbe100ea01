import SqlSelect.Proofs.Pieces
import SqlSelect.Proofs.Scanning.Invariant

/-!
# The tokens of a text

The tokens of a text are the text, cut into marks and the longest pieces between them.

* `Token.written`: tokens written one after the other;
* `Token.isMark`: the tokens that are no text. Of two neighbours one is a mark
  (`isChain_gather`), and no text is empty (`text_empty_not_mem_gather`);
* `IsName`: the names of marks. A name that is read goes on as far as it can
  (`Mode.IsSound.of_suffix`);
* `scan_lossless`: all this of what the loop over the bytes finds in a text, so that a statement
  without parameters is its own text.
-/

namespace SqlSelect

namespace Placeholder

/-- Tokens as they stand in a text. -/
def Token.written (ts : List Token) : String := String.join (ts.map Token.write)

/-- Is the token a mark? -/
def Token.isMark : Token → Bool
  | text _ => false
  | _ => true

theorem Token.toList_written (ts : List Token) :
    (written ts).toList = ts.flatMap fun t => t.write.toList := by
  simp [written, List.flatMap_map]

theorem written_tokens (s : String) : Token.written (tokens s) = s := by
  rw [← String.toList_inj, Token.toList_written, write_tokens]

/-! ### The texts between marks -/

theorem isMark_eq_false_of_mem_pending {p : List Char} {t : Token} (ht : t ∈ pending p) :
    t.isMark = false := by
  cases p with
  | nil => simp [pending] at ht
  | cons c p =>
    rw [pending, List.mem_singleton] at ht
    rw [ht]
    rfl

theorem text_empty_not_mem_pending (p : List Char) : Token.text "" ∉ pending p := by
  cases p with
  | nil => simp [pending]
  | cons c p =>
    rw [pending, List.mem_singleton, Token.text.injEq, ← String.toList_inj]
    simp

theorem text_empty_not_mem_gather (p : List Char) (ls : List Lexeme) :
    Token.text "" ∉ gather p ls := by
  induction ls generalizing p with
  | nil => exact text_empty_not_mem_pending p
  | cons l ls ih => cases l <;> simp [gather, ih, text_empty_not_mem_pending]

theorem isChain_cons_of_isMark {m : Token} (hm : m.isMark = true) {ts : List Token}
    (hts : ts.IsChain fun t u => t.isMark = true ∨ u.isMark = true) :
    (m :: ts).IsChain fun t u => t.isMark = true ∨ u.isMark = true := by
  cases ts with
  | nil => exact .singleton m
  | cons t ts => exact List.isChain_cons_cons.2 ⟨.inl hm, hts⟩

/-- Of two neighbours one is a mark. -/
theorem isChain_gather (p : List Char) (ls : List Lexeme) :
    (gather p ls).IsChain fun t u => t.isMark = true ∨ u.isMark = true := by
  induction ls generalizing p with
  | nil => cases p <;> simp [gather, pending]
  | cons l ls ih =>
    have hmark : ∀ m : Token, m.isMark = true →
        (pending p ++ m :: gather [] ls).IsChain fun t u => t.isMark = true ∨ u.isMark = true := by
      intro m hm
      have hbehind := isChain_cons_of_isMark hm (ih [])
      cases p with
      | nil => exact hbehind
      | cons c p => exact List.isChain_cons_cons.2 ⟨.inr hm, hbehind⟩
    cases l with
    | char c => exact ih (c :: p)
    | positional => exact hmark .positional rfl
    | named n => exact hmark (.named (String.ofList n)) rfl

/-! ### Names -/

/-- A character for the beginning of a name, with characters of names behind it. -/
def IsName (n : List Char) : Prop := n.head?.any isNameStart = true ∧ ∀ c ∈ n, isNameChar c = true

/-- Is what a mode has read of a name a name? -/
def Mode.IsSound : Mode → Prop
  | .name n => IsName n.reverse
  | _ => True

/-- Something that is not in the front of a list is in the rest, with all that is behind it. -/
theorem cons_suffix_of_suffix_append {α : Type} {a : α} {behind front rest : List α}
    (h : a :: behind <:+ front ++ rest) (ha : a ∉ front) : a :: behind <:+ rest := by
  induction front with
  | nil => exact h
  | cons b front ih =>
    rw [List.mem_cons, not_or] at ha
    rcases List.suffix_cons_iff.1 h with heq | hsuffix
    · exact absurd (List.cons.inj heq).1 ha.1
    · exact ih hsuffix ha.2

theorem isSound_plainStep (c : Char) : (plainStep c).1.IsSound := by
  unfold plainStep
  split_ifs <;> trivial

/-- A name goes on with characters of names only. -/
theorem Mode.IsSound.step {m : Mode} (hm : m.IsSound) (c : Char) : (step m c).1.IsSound := by
  cases m with
  | plain => exact isSound_plainStep c
  | colon =>
    simp only [Placeholder.step]
    split_ifs with hcolon hstart
    · trivial
    · exact ⟨by simpa using hstart, by simpa using isNameChar_of_isNameStart hstart⟩
    · exact isSound_plainStep c
  | name n =>
    simp only [Placeholder.step]
    split_ifs with hc
    · obtain ⟨hstart, hname⟩ : IsName n.reverse := hm
      obtain ⟨d, ds, hn⟩ : ∃ d ds, n.reverse = d :: ds :=
        List.exists_cons_of_ne_nil fun hnil => by simp [hnil] at hstart
      have hcons : (c :: n).reverse = d :: (ds ++ [c]) := by simp [hn]
      rw [hn] at hstart hname
      refine (hcons ▸ ⟨by simpa using hstart, ?_⟩ : IsName (c :: n).reverse)
      simpa [hc, or_imp, forall_and] using hname
    · exact isSound_plainStep c
  | quoted =>
    simp only [Placeholder.step]
    split_ifs <;> trivial
  | escaped => trivial

theorem named_not_mem_plainStep (c : Char) (n : List Char) :
    Lexeme.named n ∉ (plainStep c).2 := by
  unfold plainStep
  split_ifs <;> simp

/-- A mark of a name is complete when a character comes that is in no name. -/
theorem named_not_mem_step {m : Mode} {c : Char} (hc : ∀ r, m = .name r → isNameChar c = true)
    (n : List Char) : Lexeme.named n ∉ (step m c).2 := by
  cases m with
  | plain => exact named_not_mem_plainStep c n
  | colon =>
    simp only [step]
    split_ifs <;> simp [named_not_mem_plainStep]
  | name r => simp [step, hc r rfl]
  | quoted => simp [step]
  | escaped => simp [step]

/-- What is read as a name is one, and what is behind it does not go on with it. -/
theorem Mode.IsSound.of_suffix {m : Mode} (hm : m.IsSound) {cs n : List Char}
    {behind : List Lexeme} (h : .named n :: behind <:+ lexemesFrom m cs) :
    IsName n ∧ ∀ c ∈ (behind.flatMap Lexeme.write).head?, isNameChar c = false := by
  induction cs generalizing m with
  | nil =>
    cases m with
    | name r =>
      have heq : n = r.reverse ∧ behind = [] := by
        simpa [lexemesFrom, finish, List.suffix_cons_iff] using h
      rw [heq.1, heq.2]
      exact ⟨hm, by simp⟩
    | _ => simp [lexemesFrom, finish, List.suffix_cons_iff] at h
  | cons c cs ih =>
    rw [lexemesFrom] at h
    by_cases hends : ∃ r, m = .name r ∧ isNameChar c = false
    · obtain ⟨r, rfl, hc⟩ := hends
      have hstep : Placeholder.step (.name r) c =
          ((plainStep c).1, .named r.reverse :: (plainStep c).2) := by
        simp [Placeholder.step, hc]
      rw [hstep, List.cons_append] at h
      -- this is the mark, or it is further behind
      rcases List.suffix_cons_iff.1 h with heq | hsuffix
      · obtain ⟨hn, rfl⟩ := List.cons.inj heq
        have hwrite : ((plainStep c).2 ++ lexemesFrom (plainStep c).1 cs).flatMap Lexeme.write =
            c :: cs := write_lexemesFrom .plain (c :: cs)
        rw [Lexeme.named.inj hn, hwrite]
        exact ⟨hm, by simpa using hc⟩
      · exact ih (isSound_plainStep c)
          (cons_suffix_of_suffix_append hsuffix (named_not_mem_plainStep c n))
    · have hgoes : ∀ r, m = .name r → isNameChar c = true := fun r hr =>
        Bool.of_not_eq_false fun hc => hends ⟨r, hr, hc⟩
      exact ih (hm.step c) (cons_suffix_of_suffix_append h (named_not_mem_step hgoes n))

/-- A mark of a name among tokens comes from one among lexemes, with what is behind it. -/
theorem exists_suffix_of_suffix_gather {p : List Char} {ls : List Lexeme} {n : String}
    {behind : List Token} (h : .named n :: behind <:+ gather p ls) :
    ∃ m ms, .named m :: ms <:+ ls ∧ n = String.ofList m ∧ behind = gather [] ms := by
  have hpending : ∀ q : List Char, Token.named n ∉ pending q := fun q hq =>
    absurd (isMark_eq_false_of_mem_pending hq) (by simp [Token.isMark])
  induction ls generalizing p with
  | nil => exact absurd (h.mem List.mem_cons_self) (hpending p)
  | cons l ls ih =>
    cases l with
    | char c =>
      obtain ⟨m, ms, hms, hm⟩ := ih h
      exact ⟨m, ms, List.suffix_cons_iff.2 (.inr hms), hm⟩
    | positional =>
      rcases List.suffix_cons_iff.1 (cons_suffix_of_suffix_append h (hpending p)) with heq | hsuffix
      · exact absurd (List.cons.inj heq).1 (by simp)
      · obtain ⟨m, ms, hms, hm⟩ := ih hsuffix
        exact ⟨m, ms, List.suffix_cons_iff.2 (.inr hms), hm⟩
    | named m =>
      rcases List.suffix_cons_iff.1 (cons_suffix_of_suffix_append h (hpending p)) with heq | hsuffix
      · obtain ⟨hn, rfl⟩ := List.cons.inj heq
        exact ⟨m, ls, List.suffix_rfl, Token.named.inj hn, rfl⟩
      · obtain ⟨m, ms, hms, hm⟩ := ih hsuffix
        exact ⟨m, ms, List.suffix_cons_iff.2 (.inr hms), hm⟩

/-- The names of the marks of a text. -/
theorem isName_of_suffix_tokens {s n : String} {behind : List Token}
    (h : .named n :: behind <:+ tokens s) :
    IsName n.toList ∧ ∀ c ∈ (Token.written behind).toList.head?, isNameChar c = false := by
  obtain ⟨m, ms, hms, rfl, rfl⟩ := exists_suffix_of_suffix_gather h
  have hname := Mode.IsSound.of_suffix (m := .plain) trivial hms
  rw [String.toList_ofList, Token.toList_written, write_gather]
  exact hname

/-! ### What the loop finds -/

/-- The loop over the bytes of a text ends, and cuts it between characters only. What it finds,
written one after the other, is the text. No piece of text is empty, and of two neighbours one is a
mark. Each name begins with a letter or `_`, has only letters, digits and `_`, and goes on as far as
there are any. So a statement without parameters is its own text. -/
theorem scan_lossless (s : String) :
    (Loop.last s).IsOver (Utf8.bytes s) ∧ Loop.scan? s = some (tokens s) ∧
      Token.written (tokens s) = s ∧ Token.text "" ∉ tokens s ∧
      ((tokens s).IsChain fun t u => t.isMark = true ∨ u.isMark = true) ∧
      (∀ n behind, .named n :: behind <:+ tokens s →
        IsName n.toList ∧ ∀ c ∈ (Token.written behind).toList.head?, isNameChar c = false) ∧
      ∀ fetchSql, (Statement.mk s [] fetchSql).realSql = s := by
  refine ⟨Loop.isOver_last s, Loop.scan?_eq s, written_tokens s, text_empty_not_mem_gather _ _,
    isChain_gather _ _, fun n behind h => isName_of_suffix_tokens h, fun fetchSql => ?_⟩
  rw [Statement.realSql, inlined_eq_fillLexemes]
  exact fillLexemes_lexemes s

end Placeholder

end SqlSelect
