import Mathlib
import SqlSelect.Name
import SqlSelect.TableName
import SqlSelect.Text.SnakeCase

/-!
# Texts over an alphabet

`Text.IsOver p s` says that every character of `s` satisfies `p`. Cutting a text up and putting
texts together stays within an alphabet, and so does resolving the table placeholders of a text if
the alphabet holds the small form of each of its letters (`isOver_expand`).

* `Name.isPlainChar`: the ASCII letters and digits, the underscore and the dot. A table that is
  named for a record type of such a name is over this alphabet again (`isOver_snakeCase`);
* `Name.fields`: the names that a field text stands for.
-/

namespace SqlSelect

namespace Chars

variable {p : Char → Bool}

/-- The small form of a character is the character or a small ASCII letter. -/
theorem toLower_eq_self_or (c : Char) :
    c.toLower = c ∨ 97 ≤ c.toLower.toNat ∧ c.toLower.toNat ≤ 122 := by
  unfold Char.toLower
  split
  · next h =>
    right
    have hlo : 65 ≤ c.val.toNat := UInt32.le_iff_toNat_le.1 h.1
    have hhi : c.val.toNat ≤ 90 := UInt32.le_iff_toNat_le.1 h.2
    have hsum : (c.val + ('a'.val - 'A'.val)).toNat = c.val.toNat + 32 := by
      have : ('a'.val - 'A'.val).toNat = 32 := by decide
      rw [UInt32.toNat_add]
      omega
    simp only [Char.toNat]
    omega
  · exact .inl rfl

theorem mem_of_mem_trimEnd {c : Char} {cs : List Char} (h : c ∈ trimEnd cs) : c ∈ cs := by
  rw [trimEnd, List.mem_reverse] at h
  exact List.mem_reverse.1 (List.dropWhile_subset _ h)

theorem mem_of_mem_trim {c : Char} {cs : List Char} (h : c ∈ trim cs) : c ∈ cs :=
  List.dropWhile_subset _ (mem_of_mem_trimEnd h)

/-- The pieces of a text have no characters of their own. -/
theorem mem_of_mem_splitWhere {c : Char} {w cs : List Char} (hw : w ∈ splitWhere p cs)
    (hc : c ∈ w) : c ∈ cs := by
  induction cs generalizing w with
  | nil =>
    rw [splitWhere, List.mem_singleton] at hw
    subst hw
    exact hc
  | cons d cs ih =>
    rw [splitWhere] at hw
    split at hw
    · rcases List.mem_cons.1 hw with rfl | hw
      · exact absurd hc List.not_mem_nil
      · exact List.mem_cons_of_mem _ (ih hw hc)
    · cases hs : splitWhere p cs with
      | nil => exact absurd hs (splitWhere_ne_nil p cs)
      | cons v vs =>
        rw [hs] at hw ih
        rcases List.mem_cons.1 hw with rfl | hw
        · rcases List.mem_cons.1 hc with rfl | hc
          · exact List.mem_cons_self
          · exact List.mem_cons_of_mem _ (ih List.mem_cons_self hc)
        · exact List.mem_cons_of_mem _ (ih (List.mem_cons_of_mem _ hw) hc)

theorem of_mem_join {sep : List Char} {ws : List (List Char)} (hsep : ∀ c ∈ sep, p c = true)
    (hws : ∀ w ∈ ws, ∀ c ∈ w, p c = true) : ∀ c ∈ join sep ws, p c = true := by
  match ws with
  | [] => exact fun c hc => absurd hc List.not_mem_nil
  | [w] => exact hws w List.mem_cons_self
  | w :: v :: ws =>
    have hrest := of_mem_join hsep fun x hx => hws x (List.mem_cons_of_mem w hx)
    intro c hc
    rw [join, List.mem_append, List.mem_append] at hc
    rcases hc with (hc | hc) | hc
    · exact hws w List.mem_cons_self c hc
    · exact hsep c hc
    · exact hrest c hc

theorem mem_of_mem_removePair {a b c : Char} {cs : List Char} (h : c ∈ removePair a b cs) :
    c ∈ cs := by
  fun_induction removePair a b cs with
  | case1 => exact h
  | case2 => exact h
  | case3 d e cs _ ih => exact List.mem_cons_of_mem _ (List.mem_cons_of_mem _ (ih h))
  | case4 d e cs _ ih =>
    rcases List.mem_cons.1 h with rfl | h
    · exact List.mem_cons_self
    · exact List.mem_cons_of_mem _ (ih h)

end Chars

namespace Text

/-- Does every character of the text satisfy `p`? -/
def IsOver (p : Char → Bool) (s : String) : Prop := ∀ c ∈ s.toList, p c = true

instance (p : Char → Bool) (s : String) : Decidable (IsOver p s) :=
  List.decidableBAll (fun c => p c = true) s.toList

variable {p q : Char → Bool} {s t : String}

theorem IsOver.mono (h : IsOver p s) (hpq : ∀ c, p c = true → q c = true) : IsOver q s :=
  fun c hc => hpq c (h c hc)

/-- A text with no characters but those of another is over the same alphabet. -/
theorem IsOver.subset (h : IsOver p s) (hs : ∀ c ∈ t.toList, c ∈ s.toList) : IsOver p t :=
  fun c hc => h c (hs c hc)

@[simp] theorem isOver_empty : IsOver p "" := by simp [IsOver]

@[simp] theorem isOver_ofList {cs : List Char} :
    IsOver p (String.ofList cs) ↔ ∀ c ∈ cs, p c = true := by
  simp [IsOver]

@[simp] theorem isOver_append : IsOver p (s ++ t) ↔ IsOver p s ∧ IsOver p t := by
  simp [IsOver, or_imp, forall_and]

theorem IsOver.trim (h : IsOver p s) : IsOver p (trim s) :=
  h.subset fun c hc => Chars.mem_of_mem_trim (by simpa using hc)

/-- The pieces between separators are over the alphabet of the text. -/
theorem IsOver.of_mem_splitOn {sep : Char} (h : IsOver p s) (ht : t ∈ splitOn sep s) :
    IsOver p t := by
  obtain ⟨w, hw, rfl⟩ := List.mem_map.1 ht
  exact h.subset fun c hc => Chars.mem_of_mem_splitWhere hw (by simpa using hc)

theorem IsOver.of_mem_items {sep : Char} (h : IsOver p s) (ht : t ∈ items sep s) :
    IsOver p t := by
  obtain ⟨u, hu, rfl⟩ := List.mem_map.1 (List.mem_filter.1 ht).1
  exact (h.of_mem_splitOn hu).trim

theorem IsOver.of_mem_words (h : IsOver p s) (ht : t ∈ words s) : IsOver p t := by
  obtain ⟨w, hw, rfl⟩ := List.mem_map.1 ht
  have hsplit := (List.mem_filter.1 hw).1
  exact h.subset fun c hc => Chars.mem_of_mem_splitWhere hsplit (by simpa using hc)

theorem isOver_join {ts : List String} (hs : IsOver p s) (h : ∀ t ∈ ts, IsOver p t) :
    IsOver p (join s ts) := by
  intro c hc
  rw [toList_join] at hc
  refine Chars.of_mem_join hs (fun w hw => ?_) c hc
  obtain ⟨t, ht, rfl⟩ := List.mem_map.1 hw
  exact h t ht

/-- What is written for the members of a list, with a separator between them. -/
theorem isOver_join_map {α : Type} {as : List α} {f : α → String} (hs : IsOver p s)
    (h : ∀ a ∈ as, IsOver p (f a)) : IsOver p (join s (as.map f)) :=
  isOver_join hs (List.forall_mem_map.2 h)

/-- Both sides of the first separator are over the alphabet of the text. -/
theorem IsOver.of_splitFirst? {sep : Char} {before after : String} (h : IsOver p s)
    (hs : splitFirst? sep s = some (before, after)) : IsOver p before ∧ IsOver p after := by
  obtain ⟨⟨b, a⟩, hba, he⟩ := Option.map_eq_some_iff.1 hs
  obtain ⟨rfl, rfl⟩ := Prod.mk.inj he
  have hcs := Chars.eq_of_splitFirst? hba
  constructor <;> refine h.subset fun c hc => ?_
  · rw [hcs]
    exact List.mem_append_left _ (by simpa using hc)
  · rw [hcs]
    exact List.mem_append_right _ (List.mem_cons_of_mem _ (by simpa using hc))

end Text

namespace TableName

variable {p : Char → Bool}

theorem expandChars_subset (hlower : ∀ c, p c = true → p c.toLower = true)
    {pre cs : List Char} (hpre : ∀ c ∈ pre, p c = true) (hcs : ∀ c ∈ cs, p c = true) :
    ∀ c ∈ expandChars pre cs, p c = true := by
  fun_induction expandChars pre cs with
  | case1 => exact hcs
  | case2 => exact hcs
  | case3 a b cs _ name rest hname _ ih =>
    -- the name of a placeholder is a part of the text, and is written in small letters
    have hcs' : ∀ c ∈ name ++ '_' :: '_' :: rest, p c = true := fun c hc =>
      hcs c (List.mem_cons_of_mem _ (List.mem_cons_of_mem _
        (by rw [(eq_of_closing? hname).1]; exact hc)))
    intro c hc
    simp only [List.mem_append, Chars.lowerAscii, List.mem_map] at hc
    rcases hc with (hc | ⟨d, hd, rfl⟩) | hc
    · exact hpre c hc
    · exact hlower d (hcs' d (List.mem_append_left _ hd))
    · exact ih (fun d hd => hcs' d (by simp [hd])) c hc
  | case4 a b cs _ _ ih =>
    intro c hc
    rcases List.mem_cons.1 hc with rfl | hc
    · exact hcs c List.mem_cons_self
    · exact ih (fun d hd => hcs d (List.mem_cons_of_mem _ hd)) c hc
  | case5 a b cs _ ih =>
    intro c hc
    rcases List.mem_cons.1 hc with rfl | hc
    · exact hcs c List.mem_cons_self
    · exact ih (fun d hd => hcs d (List.mem_cons_of_mem _ hd)) c hc

/-- Resolving placeholders stays within an alphabet that holds the prefix and the small form of
each of its letters. -/
theorem isOver_expand (hlower : ∀ c, p c = true → p c.toLower = true) {pre s : String}
    (hpre : Text.IsOver p pre) (hs : Text.IsOver p s) : Text.IsOver p (expand pre s) := by
  rw [expand, Text.isOver_ofList]
  exact expandChars_subset hlower hpre hs

end TableName

namespace Name

/-- A character that may stand in a plain name. -/
def isPlainChar (c : Char) : Bool := c.isAlphanum || c == '_' || c == '.'

/-- A plain character is an ASCII character, and its small form is plain. -/
theorem isPlainChar_lower {c : Char} (h : isPlainChar c = true) :
    c.toNat < 128 ∧ isPlainChar c.toLower = true := by
  have hlt : c.toNat < 128 := by
    simp only [isPlainChar, Char.isAlphanum, Char.isAlpha, Char.isUpper, Char.isLower, Char.isDigit,
      Bool.or_eq_true, Bool.and_eq_true, decide_eq_true_eq, beq_iff_eq, UInt32.le_iff_toNat_le] at h
    rcases h with (((⟨-, h⟩ | ⟨-, h⟩) | ⟨-, h⟩) | rfl) | rfl
    · exact Nat.lt_of_le_of_lt h (by decide)
    · exact Nat.lt_of_le_of_lt h (by decide)
    · exact Nat.lt_of_le_of_lt h (by decide)
    · decide
    · decide
  have hall : ∀ n < 128, isPlainChar (Char.ofNat n) = true →
      isPlainChar (Char.ofNat n).toLower = true := by decide
  refine ⟨hlt, ?_⟩
  simpa using hall c.toNat hlt (by simpa using h)

variable {p : Char → Bool}

/-- The fields that a field text stands for: itself, if it has no sign of a fan-out. -/
def fields (field : String) : List String :=
  match fanOut? field with
  | some (_, names) => names
  | none => [field]

theorem fields_of_fanOut? {field : String} {k : Connective} {names : List String}
    (h : fanOut? field = some (k, names)) : fields field = names := by
  simp [fields, h]

theorem fields_of_none {field : String} (h : fanOut? field = none) : fields field = [field] := by
  simp [fields, h]

/-- The fields that a field text stands for are over its alphabet. -/
theorem isOver_of_mem_fields {field name : String} (h : Text.IsOver p field)
    (hn : name ∈ fields field) : Text.IsOver p name := by
  cases hf : fanOut? field with
  | none =>
    rw [fields_of_none hf, List.mem_singleton] at hn
    exact hn ▸ h
  | some r =>
    obtain ⟨k, names⟩ := r
    rw [fields_of_fanOut? hf] at hn
    obtain ⟨⟨j, sign⟩, -, he⟩ := Option.map_eq_some_iff.1 hf
    obtain ⟨-, rfl⟩ := Prod.mk.inj he
    exact h.of_mem_items hn

end Name

namespace Text

open Name

theorem mem_of_mem_humps {k : Chars.Case} {c : Char} {w cs : List Char} (hw : w ∈ Chars.humps k cs)
    (hc : c ∈ w) : c ∈ cs := by
  rw [← Chars.flatten_humps k cs]
  exact List.mem_flatten.2 ⟨w, hw, hc⟩

theorem isPlain_lowerWord {w : List Char} (h : ∀ c ∈ w, isPlainChar c = true) :
    ∀ c ∈ Chars.lowerWord w, isPlainChar c = true := by
  have hlower : ∀ c ∈ w, Chars.lower c = [c.toLower] ∧ isPlainChar c.toLower = true := fun c hc =>
    ⟨Chars.lower_of_lt (isPlainChar_lower (h c hc)).1, (isPlainChar_lower (h c hc)).2⟩
  fun_induction Chars.lowerWord w with
  | case1 => exact fun c hc => absurd hc List.not_mem_nil
  | case2 => exact absurd (h 'Σ' List.mem_cons_self) (by decide)
  | case3 c _ =>
    rw [(hlower c List.mem_cons_self).1]
    simpa using (hlower c List.mem_cons_self).2
  | case4 c d cs ih =>
    rw [(hlower c List.mem_cons_self).1]
    intro e he
    rcases List.mem_cons.1 he with rfl | he
    · exact (hlower c List.mem_cons_self).2
    · exact ih (fun x hx => h x (List.mem_cons_of_mem _ hx))
        (fun x hx => hlower x (List.mem_cons_of_mem _ hx)) e he

/-- The table of a record type with a plain name has a plain name. -/
theorem isOver_snakeCase {s : String} (h : IsOver isPlainChar s) :
    IsOver isPlainChar (snakeCase s) := by
  have hword : ∀ w ∈ ((Chars.splitWhere (!Chars.isAlphanumeric ·) s.toList).flatMap
      (Chars.humps .none)).map Chars.lowerWord, ∀ c ∈ w, isPlainChar c = true := by
    intro w hw
    obtain ⟨v, hv, rfl⟩ := List.mem_map.1 hw
    obtain ⟨u, hu, hvu⟩ := List.mem_flatMap.1 hv
    exact isPlain_lowerWord fun c hc =>
      h c (Chars.mem_of_mem_splitWhere hu (mem_of_mem_humps hvu hc))
  rw [snakeCase, isOver_ofList, Chars.snakeCase]
  refine Chars.of_mem_join (fun c hc => ?_) hword
  rw [List.mem_singleton.1 hc]
  decide

end Text

end SqlSelect
