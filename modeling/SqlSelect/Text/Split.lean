/-!
# Cutting a text at its separators

The functions on `List Char` are in the namespace `Chars`; those of the same name on `String` are
in the namespace `Text` and only convert.

* `Chars.splitWhere p`: the pieces between the characters that satisfy `p`, empty ones included;
* `Chars.splitFirst? c`: what stands before and after the first `c`;
* `Chars.removePair`: a given pair of characters taken out.

Cutting at a separator and joining with it again gives the text back (`join_splitOn`).
-/

namespace SqlSelect

namespace Chars

/-- The pieces between the characters that satisfy `p`; one more than there are such characters. -/
def splitWhere (p : Char → Bool) : List Char → List (List Char)
  | [] => [[]]
  | c :: cs => if p c then [] :: splitWhere p cs else (splitWhere p cs).modifyHead (c :: ·)

/-- The pieces between the occurrences of `sep`. -/
def splitOn (sep : Char) (cs : List Char) : List (List Char) := splitWhere (· == sep) cs

/-- The pieces with `sep` written between each two. -/
def join (sep : List Char) : List (List Char) → List Char
  | [] => []
  | [w] => w
  | w :: v :: ws => w ++ sep ++ join sep (v :: ws)

/-- What stands before and after the first occurrence of `sep`. -/
def splitFirst? (sep : Char) : List Char → Option (List Char × List Char)
  | [] => none
  | c :: cs =>
    if c == sep then some ([], cs)
    else (splitFirst? sep cs).map fun (before, after) => (c :: before, after)

/-- The text without the occurrences of the two characters `a b`, found from the left. -/
def removePair (a b : Char) : List Char → List Char
  | [] => []
  | [c] => [c]
  | c :: d :: cs => if c == a && d == b then removePair a b cs else c :: removePair a b (d :: cs)

theorem splitWhere_ne_nil (p : Char → Bool) (cs : List Char) : splitWhere p cs ≠ [] := by
  induction cs with
  | nil => simp [splitWhere]
  | cons c cs ih =>
    rw [splitWhere]
    split
    · simp
    · cases h : splitWhere p cs <;> simp_all

theorem join_modifyHead_cons (sep : List Char) (c : Char) {ws : List (List Char)} (h : ws ≠ []) :
    join sep (ws.modifyHead (c :: ·)) = c :: join sep ws := by
  match ws with
  | [] => exact absurd rfl h
  | [_] => rfl
  | _ :: _ :: _ => rfl

/-- Cutting at a separator loses nothing. -/
theorem join_splitOn (sep : Char) (cs : List Char) : join [sep] (splitOn sep cs) = cs := by
  unfold splitOn
  induction cs with
  | nil => rfl
  | cons c cs ih =>
    rw [splitWhere]
    split
    · next h =>
      have hc : c = sep := by simpa using h
      cases hs : splitWhere (· == sep) cs with
      | nil => exact absurd hs (splitWhere_ne_nil _ cs)
      | cons w ws =>
        rw [hs] at ih
        simp [join, ih, hc]
    · rw [join_modifyHead_cons _ _ (splitWhere_ne_nil _ cs), ih]

/-- The two sides of the first separator, with the separator between them, are the text. -/
theorem eq_of_splitFirst? {sep : Char} {cs before after : List Char}
    (h : splitFirst? sep cs = some (before, after)) : cs = before ++ sep :: after := by
  induction cs generalizing before with
  | nil => simp [splitFirst?] at h
  | cons c cs ih =>
    rw [splitFirst?] at h
    split at h
    · next hc => simp_all
    · cases hs : splitFirst? sep cs with
      | none => simp [hs] at h
      | some r =>
        obtain ⟨rfl, rfl⟩ : c :: r.1 = before ∧ r.2 = after := by simpa [hs] using h
        rw [List.cons_append, ← ih hs]

theorem length_lt_of_splitFirst? {sep : Char} {cs before after : List Char}
    (h : splitFirst? sep cs = some (before, after)) : after.length < cs.length := by
  rw [eq_of_splitFirst? h]
  simp
  omega

/-- A text is cut at the first separator in it. -/
theorem splitFirst?_append_cons {sep : Char} {before : List Char} (h : sep ∉ before)
    (after : List Char) : splitFirst? sep (before ++ sep :: after) = some (before, after) := by
  induction before with
  | nil => simp [splitFirst?]
  | cons c before ih =>
    rw [List.mem_cons, not_or] at h
    rw [List.cons_append, splitFirst?, if_neg (by simpa using Ne.symm h.1), ih h.2]
    rfl

@[simp] theorem splitFirst?_eq_none_iff {sep : Char} {cs : List Char} :
    splitFirst? sep cs = none ↔ sep ∉ cs := by
  induction cs with
  | nil => simp [splitFirst?]
  | cons c cs ih =>
    rw [splitFirst?]
    split
    · next hc => simp_all
    · next hc =>
      have : sep ≠ c := fun e => hc (by simp [e])
      simp [ih, this]

end Chars

namespace Text

/-- Does `c` occur in the text? -/
def has (s : String) (c : Char) : Bool := s.toList.contains c

/-- The pieces of the text between the occurrences of `sep`. -/
def splitOn (sep : Char) (s : String) : List String :=
  (Chars.splitOn sep s.toList).map String.ofList

/-- What stands before and after the first occurrence of `sep`. -/
def splitFirst? (sep : Char) (s : String) : Option (String × String) :=
  (Chars.splitFirst? sep s.toList).map fun (before, after) =>
    (String.ofList before, String.ofList after)

/-- The texts with `sep` written between each two. -/
def join (sep : String) : List String → String
  | [] => ""
  | [s] => s
  | s :: t :: ts => s ++ sep ++ join sep (t :: ts)

@[simp] theorem join_nil (sep : String) : join sep [] = "" := rfl
@[simp] theorem join_singleton (sep s : String) : join sep [s] = s := rfl
@[simp] theorem join_cons_cons (sep s t : String) (ts : List String) :
    join sep (s :: t :: ts) = s ++ sep ++ join sep (t :: ts) := rfl

/-- Joining texts is joining their characters. -/
theorem toList_join (sep : String) (ts : List String) :
    (join sep ts).toList = Chars.join sep.toList (ts.map String.toList) := by
  match ts with
  | [] => rfl
  | [_] => rfl
  | _ :: t :: ts => simp [Chars.join, toList_join sep (t :: ts)]

end Text

end SqlSelect
