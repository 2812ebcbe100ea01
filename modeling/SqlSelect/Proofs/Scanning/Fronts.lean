import SqlSelect.Proofs.Marks

/-!
# The front of a text

Outside of names, and not behind a colon or a backslash, all that is known of the text read so far
is whether it is in quoted text. From such a place some characters lead to another one, and what
they are read as depends on nothing but whether a name goes on behind them.

* `stops`: the characters that are not only themselves, in quoted text and outside of it;
* `ReadsFront quoted front lexemes quoted' rest`: in front of `rest` the characters `front` are read
  as `lexemes`;
* `ReadsFront.colon_name`, `ReadsFront.colon_alone`: a colon with a name behind it is a mark, and
  one without is not.
-/

namespace SqlSelect

namespace Placeholder

/-- The mode of a text that is in no name and behind no colon or backslash. -/
def mode (quoted : Bool) : Mode := if quoted then .quoted else .plain

/-- The characters that are not only themselves. -/
def stops (quoted : Bool) (c : Char) : Bool :=
  if quoted then c == '\\' || c == '\'' else !isInert c

theorem stops_true_iff {c : Char} : stops true c = true ↔ c = '\\' ∨ c = '\'' := by
  simp [stops]

theorem stops_false_iff {c : Char} : stops false c = true ↔ c = '\'' ∨ c = '?' ∨ c = ':' := by
  have h : stops false c = true ↔ ¬ isInert c = true := by simp [stops]
  rw [h, isInert_iff, not_and_or, not_and_or, not_not, not_not, not_not]

/-! ### Behind a name or a colon -/

/-- What ends a name or a colon does not change whether the text is left in quoted text. -/
theorem isOpen_after_of_not_goesOn {m : Mode} (hm : m.isOpen = true) {cs : List Char}
    (hcs : cs.head?.any m.goesOn = false) :
    (after m cs).isOpen = (after .plain cs).isOpen := by
  cases cs with
  | nil => exact hm
  | cons c cs =>
    rw [after_cons, step_of_not_goesOn hm (by simpa using hcs)]
    rfl

theorem after_name_of_isNameChar (n : List Char) {cs : List Char}
    (hcs : ∀ c ∈ cs, isNameChar c = true) : after (.name n) cs = .name (cs.reverse ++ n) := by
  induction cs generalizing n with
  | nil => rfl
  | cons c cs ih =>
    obtain ⟨hc, hcs⟩ := List.forall_mem_cons.1 hcs
    have hstep : (step (.name n) c).1 = .name (c :: n) := by simp [step, hc]
    rw [after_cons, hstep, ih _ hcs]
    simp

/-- A name goes on as far as there are characters for it, and what is behind it is read as if it
stood alone. -/
theorem isOpen_after_name (n cs : List Char) :
    (after (.name n) cs).isOpen = (after .plain (cs.dropWhile isNameChar)).isOpen := by
  have hends : (cs.dropWhile isNameChar).head?.any isNameChar = false := by
    cases h : cs.dropWhile isNameChar with
    | nil => rfl
    | cons c rest => simpa [h] using List.head?_dropWhile_not isNameChar cs
  conv_lhs => rw [← List.takeWhile_append_dropWhile (p := isNameChar) (l := cs)]
  rw [after_append, after_name_of_isNameChar n fun c hc => List.mem_takeWhile_imp hc]
  exact isOpen_after_of_not_goesOn rfl hends

/-! ### What the front is read as -/

/-- In front of `rest` the characters `front` are read as `lexemes`. -/
structure ReadsFront (quoted : Bool) (front : List Char) (lexemes : List Lexeme) (quoted' : Bool)
    (rest : List Char) : Prop where
  lexemesFrom_eq : lexemesFrom (mode quoted) (front ++ rest) =
    lexemes ++ lexemesFrom (mode quoted') rest
  isOpen_eq : (after (mode quoted) (front ++ rest)).isOpen = (after (mode quoted') rest).isOpen

namespace ReadsFront

variable {quoted quoted' : Bool} {front rest : List Char} {ls : List Lexeme} {c : Char}

/-- Characters behind which nothing is held back are read so in front of any rest. -/
theorem of_eq (hls : openLexemes (mode quoted) front = ls)
    (hmode : after (mode quoted) front = mode quoted') (rest : List Char) :
    ReadsFront quoted front ls quoted' rest where
  lexemesFrom_eq := by rw [lexemesFrom_append, hls, hmode]
  isOpen_eq := by rw [after_append, hmode]

/-- Inert characters outside of quoted text. -/
theorem inert (h : ∀ c ∈ front, isInert c = true) (rest : List Char) :
    ReadsFront false front (front.map .char) false rest := by
  have hlexemes : openLexemes (mode false) front = front.map .char :=
    openLexemes_plain_of_isInert h
  have hmode : after (mode false) front = mode false := after_plain_of_isInert h
  exact of_eq hlexemes hmode rest

/-- A character that is only itself. -/
theorem char (hc : stops quoted c = false) (rest : List Char) :
    ReadsFront quoted [c] [.char c] quoted rest := by
  cases quoted with
  | true =>
    have h : c ≠ '\\' ∧ c ≠ '\'' := by simpa [stops] using hc
    exact of_eq (by simp [openLexemes, mode, step]) (by simp [mode, step, h]) rest
  | false =>
    have h : isInert c = true := by simpa [stops] using hc
    exact inert (List.forall_mem_singleton.2 h) rest

/-- A quotation mark. -/
theorem quote (quoted : Bool) (rest : List Char) :
    ReadsFront quoted ['\''] [.char '\''] (!quoted) rest := by
  cases quoted <;> exact of_eq rfl rfl rest

/-- A backslash in quoted text, with the character behind it. -/
theorem escaped (c : Char) (rest : List Char) :
    ReadsFront true ['\\', c] [.char '\\', .char c] true rest :=
  of_eq rfl rfl rest

/-- A backslash at the end of quoted text. -/
theorem backslash : ReadsFront true ['\\'] [.char '\\'] true [] := ⟨rfl, rfl⟩

/-- A positional mark. -/
theorem positional (rest : List Char) : ReadsFront false ['?'] [.positional] false rest :=
  of_eq rfl rfl rest

/-- Two colons in a row. -/
theorem colons (rest : List Char) :
    ReadsFront false [':', ':'] [.char ':', .char ':'] false rest :=
  of_eq rfl rfl rest

theorem colon_append (cs : List Char) :
    (':' :: cs.takeWhile isNameChar) ++ cs.dropWhile isNameChar = ':' :: cs := by
  rw [List.cons_append, List.takeWhile_append_dropWhile]

/-- A colon with a name behind it is a mark. -/
theorem colon_name {cs : List Char} (hcs : cs.head?.any isNameStart = true) :
    ReadsFront false (':' :: cs.takeWhile isNameChar) [.named (cs.takeWhile isNameChar)] false
      (cs.dropWhile isNameChar) := by
  cases cs with
  | nil => simp at hcs
  | cons c cs =>
    have hstart : isNameStart c = true := by simpa using hcs
    have hname := isNameChar_of_isNameStart hstart
    have hcolon : c ≠ ':' := by
      rintro rfl
      exact absurd hstart (by decide)
    have hstep : step .colon c = (.name [c], []) := by simp [step, hcolon, hstart]
    have hdrop : (c :: cs).dropWhile isNameChar = cs.dropWhile isNameChar := by simp [hname]
    have htake : (c :: cs).takeWhile isNameChar = c :: cs.takeWhile isNameChar := by simp [hname]
    constructor
    · have hread : lexemesFrom .plain (':' :: c :: cs) = lexemesFrom (.name [c]) cs := by
        simp [lexemesFrom, step, plainStep, hcolon, hstart]
      rw [colon_append, hdrop, htake]
      exact hread.trans (lexemesFrom_name [c] cs)
    · have hread : after .plain (':' :: c :: cs) = after (.name [c]) cs := by
        rw [after_cons, after_cons]
        exact congrArg (fun p => after p.1 cs) hstep
      rw [colon_append, hdrop]
      exact (congrArg Mode.isOpen hread).trans (isOpen_after_name [c] cs)

/-- A colon without a name or a colon behind it is only itself, and so are digits behind it. -/
theorem colon_alone {cs : List Char} (hcolon : cs.head? ≠ some ':')
    (hcs : cs.head?.any isNameStart = false) :
    ReadsFront false (':' :: cs.takeWhile isNameChar)
      ((':' :: cs.takeWhile isNameChar).map .char) false (cs.dropWhile isNameChar) := by
  have hends : cs.head?.any (Mode.goesOn .colon) = false := by
    cases cs with
    | nil => rfl
    | cons c cs => simpa [Mode.goesOn] using And.intro (by simpa using hcolon) (by simpa using hcs)
  have hinert : ∀ c ∈ cs.takeWhile isNameChar, isInert c = true :=
    fun c hc => isInert_of_isNameChar (List.mem_takeWhile_imp hc)
  -- the name characters behind the colon are read as if the colon were not there
  have hdigits := inert hinert (cs.dropWhile isNameChar)
  have hlexemes := hdigits.lexemesFrom_eq
  have hopen := hdigits.isOpen_eq
  rw [List.takeWhile_append_dropWhile] at hlexemes hopen
  constructor
  · have hread : lexemesFrom .plain (':' :: cs) = .char ':' :: lexemesFrom .plain cs :=
      lexemesFrom_of_not_goesOn (m := .colon) rfl hends
    rw [colon_append]
    exact hread.trans (congrArg (.char ':' :: ·) hlexemes)
  · rw [colon_append]
    exact (isOpen_after_of_not_goesOn (m := .colon) rfl hends).trans hopen

end ReadsFront

end Placeholder

end SqlSelect
