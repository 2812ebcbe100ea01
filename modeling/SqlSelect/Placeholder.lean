import SqlSelect.Param

/-!
# The marks of an SQL text

Values are bound at the marks of a statement: positional marks `?` and named marks `:name`. Marks
are looked for outside of quoted text only. In quoted text a backslash protects the next
character, and two colons in a row, as in a cast, start no name.

* `Mode`, `step`: what is known of the text read so far, and what one more character tells;
* `lexemes`: a text as single characters and marks;
* `Token`, `tokens`: a text as its marks and the longest pieces between them;
* `count`: the number of positional marks;
* `inlined`: the text with its parameters written in place.

Reading is a run of a finite control, so the lexemes of `s ++ t` are those of `s` followed by those
of `t` read in the mode that `s` leaves (`lexemesFrom_append`), and the tokens of a text write the
text again (`write_tokens`).
-/

namespace SqlSelect

namespace Placeholder

/-- A character that may begin the name of a mark. -/
def isNameStart (c : Char) : Bool := c.isAlpha || c == '_'

/-- A character that may stand in the name of a mark. -/
def isNameChar (c : Char) : Bool := c.isAlphanum || c == '_'

/-- A single character of the text, or a mark. -/
inductive Lexeme
  | char (c : Char)
  | positional
  | named (name : List Char)
  deriving DecidableEq, Repr

/-- What is known of the text read so far. -/
inductive Mode
  /-- Outside of quotes. -/
  | plain
  /-- Behind a colon that may begin a name. -/
  | colon
  /-- In a name, read so far in reverse. -/
  | name (reversed : List Char)
  /-- In quoted text. -/
  | quoted
  /-- In quoted text, behind a backslash. -/
  | escaped
  deriving DecidableEq, Repr

/-- One more character outside of quotes. -/
def plainStep (c : Char) : Mode × List Lexeme :=
  if c = '\'' then (.quoted, [.char c])
  else if c = '?' then (.plain, [.positional])
  else if c = ':' then (.colon, [])
  else (.plain, [.char c])

/-- One more character: the next mode, and what is now known to stand in the text. -/
def step : Mode → Char → Mode × List Lexeme
  | .plain, c => plainStep c
  | .colon, c =>
    if c = ':' then (.plain, [.char ':', .char ':'])
    else if isNameStart c then (.name [c], [])
    else ((plainStep c).1, .char ':' :: (plainStep c).2)
  | .name n, c =>
    if isNameChar c then (.name (c :: n), [])
    else ((plainStep c).1, .named n.reverse :: (plainStep c).2)
  | .quoted, c =>
    (if c = '\\' then .escaped else if c = '\'' then .plain else .quoted, [.char c])
  | .escaped, c => (.quoted, [.char c])

/-- What stands in the text if it ends here. -/
def finish : Mode → List Lexeme
  | .colon => [.char ':']
  | .name n => [.named n.reverse]
  | _ => []

/-- The mode after a text that is read in mode `m`. -/
def after (m : Mode) (cs : List Char) : Mode := cs.foldl (fun m c => (step m c).1) m

/-- The lexemes of a text that more text may follow. -/
def openLexemes : Mode → List Char → List Lexeme
  | _, [] => []
  | m, c :: cs => (step m c).2 ++ openLexemes (step m c).1 cs

/-- The lexemes of a text that is read in mode `m`. -/
def lexemesFrom : Mode → List Char → List Lexeme
  | m, [] => finish m
  | m, c :: cs => (step m c).2 ++ lexemesFrom (step m c).1 cs

/-- The lexemes of a text. -/
def lexemes (s : String) : List Lexeme := lexemesFrom .plain s.toList

/-- The number of positional marks. -/
def count (s : String) : Nat := (lexemes s).count .positional

/-- Does the text leave no quoted text open? -/
def isClosed (s : String) : Bool :=
  match after .plain s.toList with
  | .quoted => false
  | .escaped => false
  | _ => true

/-! ### Tokens -/

/-- A mark, or a piece of text between marks. -/
inductive Token
  | text (s : String)
  | positional
  | named (name : String)
  deriving DecidableEq, Repr

/-- The piece of text that was read in reverse, if there is one. -/
def pending : List Char → List Token
  | [] => []
  | c :: cs => [.text (String.ofList (c :: cs).reverse)]

/-- Gathers neighbouring characters, of which some have been read in reverse, into texts. -/
def gather : List Char → List Lexeme → List Token
  | p, [] => pending p
  | p, .char c :: ls => gather (c :: p) ls
  | p, .positional :: ls => pending p ++ .positional :: gather [] ls
  | p, .named n :: ls => pending p ++ .named (String.ofList n) :: gather [] ls

/-- The tokens of a text. -/
def tokens (s : String) : List Token := gather [] (lexemes s)

/-- A token as it stands in the text. -/
def Token.write : Token → String
  | text s => s
  | positional => "?"
  | named n => ":" ++ n

@[simp] theorem Token.write_text (s : String) : (text s).write = s := rfl
@[simp] theorem Token.write_positional : positional.write = "?" := rfl
@[simp] theorem Token.write_named (n : String) : (named n).write = ":" ++ n := rfl

/-- Writes tokens, with the values `vs` for the positional marks from the left and the first
parameter of a name for a named mark. A mark without a value stays as it is. -/
def fill (ps : List Param) : List Value → List Token → String
  | _, [] => ""
  | v :: vs, .positional :: ts => v.literal ++ fill ps vs ts
  | vs, .named n :: ts =>
    ((Params.get? ps n).elim (":" ++ n) fun p => p.value.literal) ++ fill ps vs ts
  | vs, t :: ts => t.write ++ fill ps vs ts

/-- The text with its parameters written in place. -/
def inlined (s : String) (ps : List Param) : String := fill ps (Params.unnamed ps) (tokens s)

/-! ### Reading is compositional and loses nothing -/

@[simp] theorem after_nil (m : Mode) : after m [] = m := rfl

@[simp] theorem after_cons (m : Mode) (c : Char) (cs : List Char) :
    after m (c :: cs) = after (step m c).1 cs := rfl

@[simp] theorem after_append (m : Mode) (s t : List Char) :
    after m (s ++ t) = after (after m s) t := by
  simp [after, List.foldl_append]

theorem lexemesFrom_append (m : Mode) (s t : List Char) :
    lexemesFrom m (s ++ t) = openLexemes m s ++ lexemesFrom (after m s) t := by
  induction s generalizing m with
  | nil => rfl
  | cons c s ih => simp [lexemesFrom, openLexemes, ih]

theorem lexemesFrom_eq (m : Mode) (s : List Char) :
    lexemesFrom m s = openLexemes m s ++ finish (after m s) := by
  simpa [lexemesFrom] using lexemesFrom_append m s []

/-- A lexeme as it stands in the text. -/
def Lexeme.write : Lexeme → List Char
  | char c => [c]
  | positional => ['?']
  | named n => ':' :: n

/-- What a mode holds back of the text read so far. -/
def heldBack (m : Mode) : List Char := (finish m).flatMap Lexeme.write

theorem write_plainStep (c : Char) :
    (plainStep c).2.flatMap Lexeme.write ++ heldBack (plainStep c).1 = [c] := by
  unfold plainStep
  split
  · simp_all [heldBack, finish, Lexeme.write]
  · split
    · simp_all [heldBack, finish, Lexeme.write]
    · split <;> simp_all [heldBack, finish, Lexeme.write]

theorem write_step (m : Mode) (c : Char) :
    (step m c).2.flatMap Lexeme.write ++ heldBack (step m c).1 = heldBack m ++ [c] := by
  cases m with
  | plain => simpa [step, heldBack, finish] using write_plainStep c
  | colon =>
    have h := write_plainStep c
    simp only [step]
    split
    · simp_all [heldBack, finish, Lexeme.write]
    · split
      · simp [heldBack, finish, Lexeme.write]
      · simp [heldBack, finish, Lexeme.write] at h ⊢
        exact h
  | name n =>
    have h := write_plainStep c
    simp only [step]
    split
    · simp [heldBack, finish, Lexeme.write]
    · simp [heldBack, finish, Lexeme.write] at h ⊢
      exact h
  | quoted =>
    simp only [step]
    split
    · simp [heldBack, finish, Lexeme.write]
    · split <;> simp [heldBack, finish, Lexeme.write]
  | escaped => simp [step, heldBack, finish, Lexeme.write]

theorem write_lexemesFrom (m : Mode) (s : List Char) :
    (lexemesFrom m s).flatMap Lexeme.write = heldBack m ++ s := by
  induction s generalizing m with
  | nil => simp [lexemesFrom, heldBack]
  | cons c s ih =>
    rw [lexemesFrom, List.flatMap_append, ih, ← List.append_assoc, write_step]
    simp

theorem write_pending (p : List Char) :
    ((pending p).flatMap fun t => t.write.toList) = p.reverse := by
  cases p <;> simp [pending]

theorem write_gather (p : List Char) (ls : List Lexeme) :
    ((gather p ls).flatMap fun t => t.write.toList) =
      p.reverse ++ ls.flatMap Lexeme.write := by
  induction ls generalizing p with
  | nil => simp [gather, write_pending]
  | cons l ls ih =>
    cases l <;> simp [gather, write_pending, ih, Lexeme.write]

/-- The tokens of a text, written one after the other, are the text. -/
theorem write_tokens (s : String) : ((tokens s).flatMap fun t => t.write.toList) = s.toList := by
  simp [tokens, write_gather, lexemes, write_lexemesFrom, heldBack, finish]

end Placeholder

end SqlSelect
