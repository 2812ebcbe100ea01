import SqlSelect.Proofs.Backticks.Unquoted

/-!
# Identifiers in backticks

The dialect with backticks quotes a dotted name part by part, unless the name is a number. Numbers
are not only written in digits: three words are numbers, and they are identifiers too.

* `Name.IsIdentifier`: letters, digits and underscores, the first of them no digit;
* `Dialect.quote_mysql_join`: how a dotted name of identifiers is written.
-/

namespace SqlSelect

/-! ### Identifiers -/

namespace Name

/-- A letter, a digit or an underscore. -/
def isIdentifierChar (c : Char) : Bool := c.isAlphanum || c == '_'

/-- Letters, digits and underscores, the first of them no digit. -/
structure IsIdentifier (s : String) : Prop where
  ne_empty : s ≠ ""
  isOver : Text.IsOver isIdentifierChar s
  front : ∀ c ∈ s.toList.head?, c.isDigit = false

instance (s : String) : Decidable (IsIdentifier s) :=
  decidable_of_iff
    (s ≠ "" ∧ Text.IsOver isIdentifierChar s ∧ s.toList.head?.all (!·.isDigit) = true)
    ⟨fun ⟨hne, hover, hfront⟩ => ⟨hne, hover, by simpa [Option.all_eq_true] using hfront⟩,
      fun h => ⟨h.ne_empty, h.isOver, by simpa [Option.all_eq_true] using h.front⟩⟩

variable {part : String}

theorem isPlainChar_of_isIdentifierChar {c : Char} (h : isIdentifierChar c = true) :
    isPlainChar c = true := by
  rw [isPlainChar, Bool.or_eq_true]
  exact .inl h

theorem IsIdentifier.dot_not_mem (h : IsIdentifier part) : '.' ∉ part.toList := fun hmem =>
  absurd (h.isOver '.' hmem) (by decide)

/-- A dotted name is written in plain characters. -/
theorem isOver_join_of_isIdentifier {parts : List String} (h : ∀ p ∈ parts, IsIdentifier p) :
    Text.IsOver isPlainChar (Text.join "." parts) :=
  Text.isOver_join (by decide) fun p hp =>
    (h p hp).isOver.mono fun _ => isPlainChar_of_isIdentifierChar

/-- A dotted name begins as its first part does. -/
theorem front_join_of_isIdentifier {parts : List String} (h : ∀ p ∈ parts, IsIdentifier p) :
    ∀ c ∈ (Text.join "." parts).toList.head?, c.isDigit = false ∧ c ∉ Numeral.marks := by
  intro c hc
  match parts with
  | [] => cases hc
  | p :: ps =>
    have hp := h p List.mem_cons_self
    have hfirst : c ∈ p.toList.head? := by
      have hne : p.toList ≠ [] := by simpa using hp.ne_empty
      cases ps with
      | nil => exact hc
      | cons q ps =>
        rwa [Text.join_cons_cons, String.append_assoc, String.toList_append,
          List.head?_append_of_ne_nil _ hne] at hc
    have hchar := hp.isOver c (List.mem_of_mem_head? hfirst)
    have hmarks : ∀ m ∈ Numeral.marks, isIdentifierChar m = false := by
      simp [Numeral.marks, isIdentifierChar]
    refine ⟨hp.front c hfirst, fun hmark => ?_⟩
    rw [hmarks c hmark] at hchar
    cases hchar

end Name

/-! ### Dotted names -/

namespace Dialect

variable {parts : List String}

theorem isNumber_join_iff (h : ∀ p ∈ parts, Name.IsIdentifier p) :
    isNumber (Text.join "." parts) = true ↔
      Text.lowerAscii (Text.join "." parts) ∈ Numeral.words :=
  Numeral.isSome_parse?_iff (Name.front_join_of_isIdentifier h)

/-- A name in plain characters stays without quotes only if it is a number. -/
theorem isUnquotable_of_isPlain {name : String} (h : Text.IsOver Name.isPlainChar name) :
    isUnquotable name = isNumber name := by
  have hstar : name ≠ "*" := by
    rintro rfl
    exact absurd (h '*' (by decide)) (by decide)
  have htick : Text.has name '\x60' = false :=
    Text.has_eq_false_iff.2 fun hmem => absurd (h '\x60' hmem) (by decide)
  rw [isUnquotable, decide_eq_false hstar, htick, Name.isExpression_of_isPlain h]
  rfl

/-- A part between backticks. -/
def tickedPart (part : String) : String := "\x60" ++ part ++ "\x60"

/-- A dotted name of identifiers is quoted part by part if it is no number. -/
theorem quoteParts_join (hne : parts ≠ []) (h : ∀ p ∈ parts, Name.IsIdentifier p) :
    quoteParts (Text.join "." parts) =
      if isNumber (Text.join "." parts) then Text.join "." parts
      else Text.join "." (parts.map tickedPart) := by
  have hplain := Name.isOver_join_of_isIdentifier h
  have hsplit : Text.splitOn '.' (Text.join "." parts) = parts :=
    Text.splitOn_join hne fun p hp => (h p hp).dot_not_mem
  have hparts : parts.map quotePart = parts.map tickedPart :=
    List.map_congr_left fun p hp => by
      rw [quotePart, if_neg, tickedPart]
      rintro rfl
      exact absurd (h "*" hp) (by decide)
  simp only [quoteParts, trim_of_isPlain hplain, isUnquotable_of_isPlain hplain, hsplit, hparts]

theorem backtick_mem_join_ticked (hne : parts ≠ []) :
    '\x60' ∈ (Text.join "." (parts.map tickedPart)).toList := by
  obtain ⟨p, ps, rfl⟩ := List.exists_cons_of_ne_nil hne
  cases ps <;> simp [tickedPart]

/-- How a dotted name of identifiers is written: with each of its parts between backticks, unless it
is `nan`, `inf` or `infinity` in any case. These are numbers, and are written as they stand. In any
case the backticks are all that is added to a name. -/
theorem quote_mysql_join (hne : parts ≠ []) (h : ∀ p ∈ parts, Name.IsIdentifier p) :
    let name := Text.join "." parts
    (mysql.quote name = Text.join "." (parts.map tickedPart) ↔
        Text.lowerAscii name ∉ Numeral.words) ∧
      (mysql.quote name = name ↔ Text.lowerAscii name ∈ Numeral.words) ∧
      Text.unquoted (mysql.quote name) = name := by
  intro name
  have hplain : Text.IsOver Name.isPlainChar name := Name.isOver_join_of_isIdentifier h
  have htick : Text.IsOver Text.notBacktick name := hplain.mono fun c hc => by
    simpa [Text.notBacktick] using (Name.not_special_of_isPlainChar hc).2.1
  have hdiffer : name ≠ Text.join "." (parts.map tickedPart) := fun he => by
    have hmem := backtick_mem_join_ticked hne
    rw [← he] at hmem
    exact absurd (htick _ hmem) (by decide)
  rw [quote_mysql, quoteParts_join hne h, ← isNumber_join_iff h]
  refine ⟨?_, ?_, ?_⟩
  · split
    · next hnumber => exact ⟨fun he => absurd he hdiffer, fun hnot => absurd hnumber hnot⟩
    · next hnumber => exact ⟨fun _ => hnumber, fun _ => rfl⟩
  · split
    · next hnumber => exact ⟨fun _ => hnumber, fun _ => rfl⟩
    · next hnumber => exact ⟨fun he => absurd he.symm hdiffer, fun hyes => absurd hyes hnumber⟩
  · rw [← quoteParts_join hne h]
    exact unquoted_quoteParts ⟨htick, trim_of_isPlain hplain⟩

/-- A name of two parts, a name that begins like one of the words, and one of the words. -/
theorem quote_mysql_join_wordSample :
    (∀ p ∈ ["_user", "Inf"], Name.IsIdentifier p) ∧ Name.IsIdentifier "info" ∧
      Name.IsIdentifier "Inf" ∧ mysql.quote "_user.Inf" = "\x60_user\x60.\x60Inf\x60" ∧
      mysql.quote "info" = "\x60info\x60" ∧ mysql.quote "Inf" = "Inf" := by
  have hpair : ∀ p ∈ ["_user", "Inf"], Name.IsIdentifier p := by decide
  have hinfo : ∀ p ∈ ["info"], Name.IsIdentifier p := by decide
  have hword : ∀ p ∈ ["Inf"], Name.IsIdentifier p := by decide
  refine ⟨hpair, hinfo _ (List.mem_singleton_self _), hword _ (List.mem_singleton_self _),
    ?_, ?_, ?_⟩
  · exact (quote_mysql_join (List.cons_ne_nil _ _) hpair).1.2 (by decide)
  · exact (quote_mysql_join (List.cons_ne_nil _ _) hinfo).1.2 (by decide)
  · exact (quote_mysql_join (List.cons_ne_nil _ _) hword).2.1.2 (by decide)

end Dialect

end SqlSelect
