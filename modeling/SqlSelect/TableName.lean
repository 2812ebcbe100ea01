import SqlSelect.Text.LetterCase

/-!
# Table placeholders

A placeholder `__NAME__` in a text stands for the table `name` under the prefix that the
installation gives to its tables.

* `TableName.closing?`: the name of a placeholder and what follows it;
* `TableName.expand`: the text with its placeholders resolved.

Placeholders are found from the left, each takes the shortest name that closes, and the search
goes on behind it.
-/

namespace SqlSelect

namespace TableName

/-- A character that may stand in the name of a placeholder. -/
def isPlaceholderChar (c : Char) : Bool := c.isUpper || c.isDigit || c == '_' || c == '-'

/-- The shortest name that two underscores close, and what stands behind them. -/
def closing? : List Char → Option (List Char × List Char)
  | [] => none
  | c :: cs =>
    if isPlaceholderChar c then
      match cs with
      | '_' :: '_' :: rest => some ([c], rest)
      | _ => (closing? cs).map fun (name, rest) => (c :: name, rest)
    else none

/-- A placeholder is its name with two underscores behind it, and its name is not empty. -/
theorem eq_of_closing? {cs name rest : List Char} (h : closing? cs = some (name, rest)) :
    cs = name ++ '_' :: '_' :: rest ∧ name ≠ [] := by
  fun_induction closing? cs generalizing name with
  | case1 => simp at h
  | case2 c _ r =>
    obtain ⟨rfl, rfl⟩ : [c] = name ∧ r = rest := by simpa using h
    simp
  | case3 c cs _ _ ih =>
    simp only [Option.map_eq_some_iff, Prod.mk.injEq, Prod.exists] at h
    obtain ⟨n, r, hn, rfl, rfl⟩ := h
    exact ⟨by rw [List.cons_append, ← (ih hn).1], by simp⟩
  | case4 => simp at h

theorem length_lt_of_closing? {cs name rest : List Char}
    (h : closing? cs = some (name, rest)) : rest.length < cs.length := by
  rw [(eq_of_closing? h).1]
  simp
  omega

/-- The characters of a text with its placeholders resolved under `pre`. -/
def expandChars (pre : List Char) : List Char → List Char
  | [] => []
  | [c] => [c]
  | c :: d :: cs =>
    if c = '_' ∧ d = '_' then
      match h : closing? cs with
      | some (name, rest) =>
        have := length_lt_of_closing? h
        pre ++ Chars.lowerAscii name ++ expandChars pre rest
      | none => c :: expandChars pre (d :: cs)
    else c :: expandChars pre (d :: cs)
  termination_by cs => cs.length

/-- The text with its placeholders resolved under the prefix `pre`. -/
def expand (pre s : String) : String := String.ofList (expandChars pre.toList s.toList)

@[simp] theorem expandChars_nil (pre : List Char) : expandChars pre [] = [] := by
  simp [expandChars]

@[simp] theorem expandChars_singleton (pre : List Char) (c : Char) :
    expandChars pre [c] = [c] := by
  simp [expandChars]

/-- A text without two underscores in a row has no placeholder. -/
theorem expandChars_of_not_infix (pre : List Char) {cs : List Char} (h : ¬ ['_', '_'] <:+: cs) :
    expandChars pre cs = cs := by
  induction cs with
  | nil => simp
  | cons c cs ih =>
    have htail := ih fun ht => h (ht.trans (List.suffix_cons c cs).isInfix)
    cases cs with
    | nil => simp
    | cons d cs =>
      have hne : ¬ (c = '_' ∧ d = '_') := by
        rintro ⟨rfl, rfl⟩
        exact h (List.prefix_append ['_', '_'] cs).isInfix
      rw [expandChars, if_neg hne, htail]

theorem expand_of_not_infix (pre : String) {s : String} (h : ¬ ['_', '_'] <:+: s.toList) :
    expand pre s = s := by
  rw [expand, expandChars_of_not_infix _ h, String.ofList_toList]

end TableName

end SqlSelect
