import SqlSelect.Text.Alphanumeric
import SqlSelect.Text.LetterCase
import SqlSelect.Text.Split

/-!
# Snake case

The name of a table is made from the name of a record type by `Text.snakeCase`: its words in lower
case with underscores between them.

* A word is a run of letters and numbers; every other character separates words.
* Inside a run a word ends before a capital that follows a small letter (`user|Name`), and before
  the last capital of a row of capitals when a small letter follows (`HTTP|Server`). Characters
  without case take the case of the letter before them.
-/

namespace SqlSelect

namespace Chars

/-- The case of the characters read since the last word boundary. -/
inductive Case
  | none
  | lower
  | upper
  deriving DecidableEq

/-- The case after one more character; one without case changes nothing. -/
def Case.next (k : Case) (c : Char) : Case :=
  if isLower c then .lower else if isUpper c then .upper else k

/-- The words of a run of letters and numbers, read in case `k`. -/
def humps (k : Case) : List Char → List (List Char)
  | [] => []
  | [c] => [[c]]
  | c :: d :: cs =>
    if k.next c = .lower && isUpper d then [c] :: humps .none (d :: cs)
    else if k = .upper && isUpper c && isLower d then
      [] :: (humps .none (d :: cs)).modifyHead (c :: ·)
    else (humps (k.next c) (d :: cs)).modifyHead (c :: ·)

/-- The words of a text, in lower case, with underscores between them. -/
def snakeCase (cs : List Char) : List Char :=
  join ['_'] (((splitWhere (!isAlphanumeric ·) cs).flatMap (humps .none)).map lowerWord)

theorem humps_ne_nil (k : Case) {cs : List Char} (h : cs ≠ []) : humps k cs ≠ [] := by
  match cs with
  | [] => exact absurd rfl h
  | [_] => simp [humps]
  | c :: d :: cs =>
    have ih (k' : Case) : humps k' (d :: cs) ≠ [] := humps_ne_nil k' (List.cons_ne_nil d cs)
    rw [humps]
    split
    · simp
    · split
      · simp
      · cases hs : humps (k.next c) (d :: cs) with
        | nil => exact absurd hs (ih _)
        | cons w ws => simp

theorem flatten_modifyHead_cons (c : Char) {ws : List (List Char)} (h : ws ≠ []) :
    (ws.modifyHead (c :: ·)).flatten = c :: ws.flatten := by
  match ws with
  | [] => exact absurd rfl h
  | _ :: _ => rfl

/-- Finding the words of a run loses nothing. -/
theorem flatten_humps (k : Case) (cs : List Char) : (humps k cs).flatten = cs := by
  match cs with
  | [] => rfl
  | [_] => rfl
  | c :: d :: cs =>
    have ih (k' : Case) := flatten_humps k' (d :: cs)
    have hne (k' : Case) : humps k' (d :: cs) ≠ [] := humps_ne_nil k' (List.cons_ne_nil d cs)
    rw [humps]
    split
    · simp [ih]
    · split
      · rw [List.flatten_cons, flatten_modifyHead_cons c (hne _), ih, List.nil_append]
      · rw [flatten_modifyHead_cons c (hne _), ih]

end Chars

namespace Text

/-- The words of a text, in lower case, with underscores between them. -/
def snakeCase (s : String) : String := String.ofList (Chars.snakeCase s.toList)

end Text

end SqlSelect
