import SqlSelect.Placeholder
import SqlSelect.Proofs.Text.Alphabet

/-!
# Marks of texts put together

Where a text is put together of parts, its marks are those of the parts, provided that no part
leaves quoted text open and that no mark goes on over a seam.

* `isInert`: a character that outside of quotes is only itself. A text of inert characters may
  stand in front of any text (`lexemes_append_of_isInert`);
* `isClosed`, `isCalm`: a text that leaves no quoted text open, and a text that cannot go on a mark
  in front of it. The one may stand in front of the other (`lexemes_append`);
* `Mode.goesOn`, `runsOn`: a text that goes on with the mark in front of it. Two texts have the marks
  of both exactly if the second does not (`lexemes_append_iff`);
* `fillLexemes`: the values written at the marks, lexeme by lexeme. Writing them into two texts is
  writing them into each (`fillLexemes_append`).
-/

namespace SqlSelect

namespace Placeholder

/-! ### Inert texts -/

/-- A character that is neither a mark nor the start of a name or of quoted text. -/
def isInert (c : Char) : Bool := c != '\'' && c != '?' && c != ':'

theorem isInert_iff {c : Char} : isInert c = true ↔ c ≠ '\'' ∧ c ≠ '?' ∧ c ≠ ':' := by
  simp [isInert, and_assoc]

/-- A small letter is inert. -/
theorem isInert_toLower {c : Char} (h : isInert c = true) : isInert c.toLower = true := by
  rcases Chars.toLower_eq_self_or c with hc | ⟨hc, -⟩
  · rw [hc]
    exact h
  · refine isInert_iff.2 ⟨?_, ?_, ?_⟩ <;>
      · intro e
        rw [e] at hc
        exact absurd hc (by decide)

theorem isInert_of_isNameChar {c : Char} (h : isNameChar c = true) : isInert c = true := by
  refine isInert_iff.2 ⟨?_, ?_, ?_⟩ <;>
    · rintro rfl
      exact absurd h (by decide)

theorem isInert_of_isPlainChar {c : Char} (h : Name.isPlainChar c = true) : isInert c = true := by
  refine isInert_iff.2 ⟨?_, ?_, ?_⟩ <;>
    · rintro rfl
      exact absurd h (by decide)

theorem step_plain_of_isInert {c : Char} (h : isInert c = true) :
    step .plain c = (.plain, [.char c]) := by
  obtain ⟨h1, h2, h3⟩ := isInert_iff.1 h
  simp [step, plainStep, h1, h2, h3]

theorem after_plain_of_isInert {cs : List Char} (h : ∀ c ∈ cs, isInert c = true) :
    after .plain cs = .plain := by
  induction cs with
  | nil => rfl
  | cons c cs ih =>
    rw [after_cons, step_plain_of_isInert (h c List.mem_cons_self)]
    exact ih fun d hd => h d (List.mem_cons_of_mem _ hd)

theorem openLexemes_plain_of_isInert {cs : List Char} (h : ∀ c ∈ cs, isInert c = true) :
    openLexemes .plain cs = cs.map .char := by
  induction cs with
  | nil => rfl
  | cons c cs ih =>
    rw [openLexemes, step_plain_of_isInert (h c List.mem_cons_self),
      ih fun d hd => h d (List.mem_cons_of_mem _ hd)]
    rfl

/-- An inert text is its characters, and what follows it is read as if it stood alone. -/
theorem lexemes_append_of_isInert {s : String} (h : Text.IsOver isInert s) (t : String) :
    lexemes (s ++ t) = s.toList.map .char ++ lexemes t := by
  rw [lexemes, String.toList_append, lexemesFrom_append, openLexemes_plain_of_isInert h,
    after_plain_of_isInert h]
  rfl

theorem isClosed_append_of_isInert {s : String} (h : Text.IsOver isInert s) (t : String) :
    isClosed (s ++ t) = isClosed t := by
  simp [isClosed, after_plain_of_isInert h]

/-! ### Closed texts and calm texts -/

/-- Is the mode outside of quoted text? -/
def Mode.isOpen : Mode → Bool
  | .quoted => false
  | .escaped => false
  | _ => true

theorem isClosed_iff {s : String} : isClosed s = true ↔ (after .plain s.toList).isOpen = true := by
  rw [isClosed]
  cases after .plain s.toList <;> simp [Mode.isOpen]

/-- Can the text not go on a mark that stands in front of it? -/
def isCalm (s : String) : Bool := s.toList.head?.all fun c => !isNameChar c && c != ':'

theorem isCalm_append {s t : String} (hs : isCalm s = true) (ht : isCalm t = true) :
    isCalm (s ++ t) = true := by
  unfold isCalm at *
  rw [String.toList_append]
  cases h : s.toList with
  | nil => exact ht
  | cons c cs => simpa [h] using hs

theorem isCalm_append_of_ne_empty {s : String} (hs : isCalm s = true) (h : s ≠ "") (t : String) :
    isCalm (s ++ t) = true := by
  unfold isCalm at *
  rw [String.toList_append]
  cases hc : s.toList with
  | nil => exact absurd (String.toList_eq_nil_iff.1 hc) h
  | cons c cs => simpa [hc] using hs

/-- Does the character go on what is being read, a colon or a name? -/
def Mode.goesOn : Mode → Char → Bool
  | .colon, c => c == ':' || isNameStart c
  | .name _, c => isNameChar c
  | _, _ => false

theorem isNameChar_of_isNameStart {c : Char} (h : isNameStart c = true) : isNameChar c = true := by
  have h : c.isAlpha = true ∨ c = '_' := by simpa [isNameStart] using h
  rcases h with h | h <;> simp [isNameChar, Char.isAlphanum, h]

theorem Mode.goesOn_eq_false (m : Mode) {c : Char} (hc : isNameChar c = false ∧ c ≠ ':') :
    m.goesOn c = false := by
  have hstart : isNameStart c = false :=
    Bool.eq_false_iff.2 (mt isNameChar_of_isNameStart (by simp [hc.1]))
  cases m <;> simp [goesOn, hstart, hc]

/-- Outside of quotes a character that does not go on what is being read ends it. -/
theorem step_of_not_goesOn {m : Mode} (hm : m.isOpen = true) {c : Char}
    (hc : m.goesOn c = false) : step m c = ((plainStep c).1, finish m ++ (plainStep c).2) := by
  cases m with
  | plain => simp [step, finish]
  | colon =>
    have h : c ≠ ':' ∧ isNameStart c = false := by simpa [Mode.goesOn] using hc
    simp [step, finish, h]
  | name n =>
    have h : isNameChar c = false := hc
    simp [step, finish, h]
  | quoted => simp [Mode.isOpen] at hm
  | escaped => simp [Mode.isOpen] at hm

/-- Outside of quotes a character that goes on no mark ends the one that is being read. -/
theorem step_of_isOpen {m : Mode} (hm : m.isOpen = true) {c : Char}
    (hc : isNameChar c = false ∧ c ≠ ':') :
    step m c = ((plainStep c).1, finish m ++ (plainStep c).2) :=
  step_of_not_goesOn hm (m.goesOn_eq_false hc)

theorem lexemesFrom_of_not_goesOn {m : Mode} (hm : m.isOpen = true) {cs : List Char}
    (hcs : cs.head?.any m.goesOn = false) :
    lexemesFrom m cs = finish m ++ lexemesFrom .plain cs := by
  cases cs with
  | nil => simp [lexemesFrom, finish]
  | cons c cs =>
    -- the first character ends what was being read; from there on both readings agree
    rw [lexemesFrom, lexemesFrom, step_of_not_goesOn hm (by simpa using hcs)]
    simp [step]

theorem lexemesFrom_of_isCalm {m : Mode} (hm : m.isOpen = true) {s : String}
    (hs : isCalm s = true) : lexemesFrom m s.toList = finish m ++ lexemes s := by
  refine lexemesFrom_of_not_goesOn hm ?_
  cases h : s.toList with
  | nil => rfl
  | cons c cs =>
    have hc : isNameChar c = false ∧ c ≠ ':' := by simpa [isCalm, h] using hs
    simpa using m.goesOn_eq_false hc

/-- Would the text go on a mark or a colon that stands at the end of another? -/
def runsOn (s t : String) : Bool := t.toList.head?.any (after .plain s.toList).goesOn

/-- The name of a mark goes on as far as there are characters for it. -/
theorem lexemesFrom_name (n cs : List Char) :
    lexemesFrom (.name n) cs = .named (n.reverse ++ cs.takeWhile isNameChar) ::
      lexemesFrom .plain (cs.dropWhile isNameChar) := by
  induction cs generalizing n with
  | nil => simp [lexemesFrom, finish]
  | cons c cs ih =>
    by_cases hc : isNameChar c = true
    · simp [lexemesFrom, step, hc, ih]
    · simp [lexemesFrom, step, hc]

/-- The lexemes of a closed text with another behind it are those of the two, unless the second goes
on a mark at the end of the first. A colon in front of the second is left aside, since two colons
are read as the two characters that they are. -/
theorem lexemes_append_iff {s t : String} (hs : isClosed s = true)
    (ht : t.toList.head? ≠ some ':') :
    lexemes (s ++ t) = lexemes s ++ lexemes t ↔ runsOn s t = false := by
  have hopen := isClosed_iff.1 hs
  have hsplit : lexemes (s ++ t) = lexemes s ++ lexemes t ↔
      lexemesFrom (after .plain s.toList) t.toList =
        finish (after .plain s.toList) ++ lexemesFrom .plain t.toList := by
    rw [lexemes, lexemes, lexemes, String.toList_append, lexemesFrom_append,
      lexemesFrom_eq .plain s.toList, List.append_assoc, List.append_cancel_left_eq]
  rw [hsplit, runsOn]
  generalize after .plain s.toList = m at hopen
  constructor
  · intro h
    rw [Bool.eq_false_iff]
    intro hgoes
    cases hc : t.toList with
    | nil => simp [hc] at hgoes
    | cons c cs =>
      rw [hc] at h hgoes ht
      -- the mark that is read has a longer name than the one at the end of the first text
      cases m with
      | colon =>
        have hstart : c ≠ ':' ∧ isNameStart c = true := by
          have hne : c ≠ ':' := by simpa using ht
          simpa [Mode.goesOn, hne] using hgoes
        have hhead := congrArg List.head? h
        simp [lexemesFrom, step, hstart, lexemesFrom_name, finish] at hhead
      | name n =>
        have hname : isNameChar c = true := by simpa [Mode.goesOn] using hgoes
        have hhead := congrArg List.head? h
        simp [lexemesFrom_name, finish, hname] at hhead
      | _ => simp [Mode.goesOn] at hgoes
  · exact lexemesFrom_of_not_goesOn hopen

/-- The lexemes of a closed text with a calm text behind it are those of the two texts. -/
theorem lexemes_append {s t : String} (hs : isClosed s = true) (ht : isCalm t = true) :
    lexemes (s ++ t) = lexemes s ++ lexemes t := by
  rw [lexemes, String.toList_append, lexemesFrom_append,
    lexemesFrom_of_isCalm (isClosed_iff.1 hs) ht, ← List.append_assoc, ← lexemesFrom_eq]
  rfl

theorem isClosed_append {s t : String} (hs : isClosed s = true) (ht : isClosed t = true)
    (hc : isCalm t = true) : isClosed (s ++ t) = true := by
  rw [isClosed_iff] at *
  rw [String.toList_append, after_append]
  cases h : t.toList with
  | nil => exact hs
  | cons c cs =>
    have hc : isNameChar c = false ∧ c ≠ ':' := by simpa [isCalm, h] using hc
    rw [h, after_cons] at ht
    rwa [after_cons, step_of_isOpen hs hc]

theorem count_append {s t : String} (hs : isClosed s = true) (ht : isCalm t = true) :
    count (s ++ t) = count s + count t := by
  rw [count, lexemes_append hs ht, List.count_append]
  rfl

theorem count_append_of_isInert {s : String} (h : Text.IsOver isInert s) (t : String) :
    count (s ++ t) = count t := by
  rw [count, lexemes_append_of_isInert h, List.count_append]
  simp [count, List.count_eq_zero]

theorem count_of_isInert {s : String} (h : Text.IsOver isInert s) : count s = 0 := by
  rw [← String.append_empty (s := s), count_append_of_isInert h]
  rfl

/-- In quoted text that nothing ends there are no marks. -/
theorem lexemesFrom_of_not_isOpen {m : Mode} (hm : m.isOpen = false) {cs : List Char}
    (hcs : '\'' ∉ cs ∧ '\\' ∉ cs) : lexemesFrom m cs = cs.map .char := by
  induction cs generalizing m with
  | nil => cases m <;> simp_all [Mode.isOpen, lexemesFrom, finish]
  | cons c cs ih =>
    have hc : c ≠ '\'' ∧ c ≠ '\\' := ⟨fun e => hcs.1 (e ▸ List.mem_cons_self),
      fun e => hcs.2 (e ▸ List.mem_cons_self)⟩
    have htail : '\'' ∉ cs ∧ '\\' ∉ cs := ⟨fun h => hcs.1 (List.mem_cons_of_mem _ h),
      fun h => hcs.2 (List.mem_cons_of_mem _ h)⟩
    -- an escaped character leads back into the quoted text
    have hquoted : lexemesFrom .quoted cs = cs.map .char := ih rfl htail
    cases m with
    | quoted => simp [lexemesFrom, step, hc, hquoted]
    | escaped => simp [lexemesFrom, step, hquoted]
    | _ => simp [Mode.isOpen] at hm

/-- A text that leaves quoted text open hides the marks behind it. -/
theorem count_append_of_not_isClosed {s t : String} (hs : isClosed s = false)
    (ht : '\'' ∉ t.toList ∧ '\\' ∉ t.toList) : count (s ++ t) = count s := by
  have hopen : (after .plain s.toList).isOpen = false := by
    rw [Bool.eq_false_iff]
    exact fun h => Bool.eq_false_iff.1 hs (isClosed_iff.2 h)
  have hfinish : finish (after .plain s.toList) = [] := by
    cases h : after .plain s.toList <;> simp_all [Mode.isOpen, finish]
  rw [count, count, lexemes, lexemes, String.toList_append, lexemesFrom_append,
    lexemesFrom_of_not_isOpen hopen ht, lexemesFrom_eq, hfinish]
  simp [List.count_eq_zero]

/-! ### Values at the marks -/

/-- The values written at the marks, as `fill` does, but lexeme by lexeme. -/
def fillLexemes (ps : List Param) : List Value → List Lexeme → String
  | _, [] => ""
  | vs, .char c :: ls => String.singleton c ++ fillLexemes ps vs ls
  | v :: vs, .positional :: ls => v.literal ++ fillLexemes ps vs ls
  | [], .positional :: ls => "?" ++ fillLexemes ps [] ls
  | vs, .named n :: ls =>
    ((Params.get? ps (String.ofList n)).elim (":" ++ String.ofList n) fun p => p.value.literal) ++
      fillLexemes ps vs ls

theorem fill_pending (ps : List Param) (vs : List Value) (p : List Char) (ts : List Token) :
    fill ps vs (pending p ++ ts) = String.ofList p.reverse ++ fill ps vs ts := by
  cases p with
  | nil => simp [pending]
  | cons c cs => cases vs <;> simp [pending, fill]

theorem fill_gather (ps : List Param) (vs : List Value) (p : List Char) (ls : List Lexeme) :
    fill ps vs (gather p ls) = String.ofList p.reverse ++ fillLexemes ps vs ls := by
  induction ls generalizing p vs with
  | nil => simpa [gather, fillLexemes, fill] using fill_pending ps vs p []
  | cons l ls ih =>
    cases l with
    | char c =>
      rw [gather, ih, fillLexemes, ← String.append_assoc]
      simp
    | positional =>
      rw [gather, fill_pending]
      cases vs <;> simp [fill, fillLexemes, ih]
    | named n =>
      rw [gather, fill_pending]
      cases vs <;> simp [fill, fillLexemes, ih]

theorem inlined_eq_fillLexemes (s : String) (ps : List Param) :
    inlined s ps = fillLexemes ps (Params.unnamed ps) (lexemes s) := by
  simp [inlined, tokens, fill_gather]

/-- If the first values are as many as the marks of the first part, each part takes its own. -/
theorem fillLexemes_append (ps : List Param) (vs ws : List Value) (ls ms : List Lexeme)
    (h : vs.length = ls.count .positional) :
    fillLexemes ps (vs ++ ws) (ls ++ ms) = fillLexemes ps vs ls ++ fillLexemes ps ws ms := by
  induction ls generalizing vs with
  | nil =>
    obtain rfl : vs = [] := List.length_eq_zero_iff.1 h
    simp [fillLexemes]
  | cons l ls ih =>
    cases l with
    | char c =>
      have := ih vs (by simpa using h)
      cases vs <;> simp_all [fillLexemes, String.append_assoc]
    | positional =>
      cases vs with
      | nil => simp at h
      | cons v vs =>
        have := ih vs (by simpa using h)
        simp_all [fillLexemes, String.append_assoc]
    | named n =>
      have := ih vs (by simpa using h)
      cases vs <;> simp_all [fillLexemes, String.append_assoc]

/-- Without named marks the named parameters do not matter. -/
theorem fillLexemes_congr (ps qs : List Param) (vs : List Value) {ls : List Lexeme}
    (h : ∀ n, Lexeme.named n ∉ ls) : fillLexemes ps vs ls = fillLexemes qs vs ls := by
  induction ls generalizing vs with
  | nil => simp [fillLexemes]
  | cons l ls ih =>
    have hls : ∀ n, Lexeme.named n ∉ ls := fun n hn => h n (List.mem_cons_of_mem _ hn)
    cases l with
    | char c => cases vs <;> simp [fillLexemes, ih _ hls]
    | positional => cases vs <;> simp [fillLexemes, ih _ hls]
    | named n => exact absurd List.mem_cons_self (h n)

theorem fillLexemes_chars_append (ps : List Param) (vs : List Value) (cs : List Char)
    (ls : List Lexeme) :
    fillLexemes ps vs (cs.map .char ++ ls) = String.ofList cs ++ fillLexemes ps vs ls := by
  induction cs with
  | nil => simp
  | cons c cs ih => cases vs <;> simp_all [fillLexemes, ← String.append_assoc]

/-- Without values a text stays as it is. -/
theorem fillLexemes_nil (ps : List Param) {ls : List Lexeme} (h : ∀ n, Lexeme.named n ∉ ls) :
    fillLexemes ps [] ls = String.ofList (ls.flatMap Lexeme.write) := by
  induction ls with
  | nil => rfl
  | cons l ls ih =>
    have hls := ih fun n hn => h n (List.mem_cons_of_mem _ hn)
    cases l with
    | char c => simp [fillLexemes, hls, Lexeme.write]
    | positional => simp [fillLexemes, hls, Lexeme.write]
    | named n => exact absurd List.mem_cons_self (h n)

/-- A text without a colon has no named mark. -/
theorem named_not_mem_lexemes {s : String} (h : ':' ∉ s.toList) (n : List Char) :
    Lexeme.named n ∉ lexemes s := by
  intro hn
  have hwrite : (lexemes s).flatMap Lexeme.write = s.toList := write_lexemesFrom .plain s.toList
  rw [← hwrite] at h
  exact h (List.mem_flatMap.2 ⟨_, hn, by simp [Lexeme.write]⟩)

end Placeholder

end SqlSelect
