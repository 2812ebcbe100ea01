import SqlSelect.Proofs.Clauses
import SqlSelect.Proofs.Reading.Tokens

/-!
# Names are read as they were given

* `Name.IsPlain`: a name that stands for itself in any place: of plain characters, without a table
  placeholder, and no keyword;
* `Scope.scan_key`: in both dialects the key of a plain field is one word, and the word is the name
  of the field.
-/

namespace SqlSelect

namespace Chars

theorem trim_of_forall {cs : List Char} (h : ∀ c ∈ cs, isWhiteSpace c = false) : trim cs = cs := by
  have hdrop : ∀ ds : List Char, (∀ c ∈ ds, isWhiteSpace c = false) →
      ds.dropWhile isWhiteSpace = ds := by
    intro ds hds
    cases ds with
    | nil => rfl
    | cons d ds => simp [hds d List.mem_cons_self]
  rw [trim, hdrop cs h, trimEnd, hdrop _ fun c hc => h c (List.mem_reverse.1 hc),
    List.reverse_reverse]

/-- Taking characters out of a joined text is taking them out of the separators and the parts. -/
theorem filter_join (p : Char → Bool) (sep : List Char) (ws : List (List Char)) :
    (join sep ws).filter p = join (sep.filter p) (ws.map (List.filter p)) := by
  match ws with
  | [] => rfl
  | [_] => rfl
  | _ :: w :: ws => simp [join, filter_join p sep (w :: ws)]

end Chars

namespace Name

/-- A name that stands for itself in any place. -/
structure IsPlain (n : String) : Prop where
  ne_empty : n ≠ ""
  isOver : Text.IsOver isPlainChar n
  noPlaceholder : ¬ ['_', '_'] <:+: n.toList
  notKeyword : Keyword.parse? n = none

instance (n : String) : Decidable (IsPlain n) :=
  decidable_of_iff
    (n ≠ "" ∧ Text.IsOver isPlainChar n ∧ ¬ ['_', '_'] <:+: n.toList ∧ Keyword.parse? n = none)
    ⟨fun ⟨hne, hover, hplace, hkey⟩ => ⟨hne, hover, hplace, hkey⟩,
      fun h => ⟨h.ne_empty, h.isOver, h.noPlaceholder, h.notKeyword⟩⟩

/-- A plain character is neither white space nor one that a dialect writes around names. -/
theorem not_special_of_isPlainChar {c : Char} (h : isPlainChar c = true) :
    Chars.isWhiteSpace c = false ∧ c ≠ '\x60' ∧ c ≠ '*' := by
  have hall : ∀ n < 128, isPlainChar (Char.ofNat n) = true →
      Chars.isWhiteSpace (Char.ofNat n) = false ∧ Char.ofNat n ≠ '\x60' ∧ Char.ofNat n ≠ '*' := by
    decide
  simpa using hall c.toNat (isPlainChar_lower h).1 (by simpa using h)

theorem filter_backtick {cs : List Char} (h : ∀ c ∈ cs, isPlainChar c = true) :
    cs.filter (· ≠ '\x60') = cs := by
  refine List.filter_eq_self.2 fun c hc => ?_
  simpa using (not_special_of_isPlainChar (h c hc)).2.1

end Name

namespace Dialect

variable {n : String}

theorem trim_of_isPlain (h : Text.IsOver Name.isPlainChar n) : Text.trim n = n := by
  rw [Text.trim, Chars.trim_of_forall fun c hc => (Name.not_special_of_isPlainChar (h c hc)).1,
    String.ofList_toList]

/-- A plain name that is quoted is put together from its parts in backticks. -/
theorem quoteParts_eq_or (h : Text.IsOver Name.isPlainChar n) :
    quoteParts n = n ∨ (quoteParts n).toList =
      Chars.join ['.'] ((Chars.splitOn '.' n.toList).map fun w => '\x60' :: (w ++ ['\x60'])) := by
  simp only [quoteParts, trim_of_isPlain h]
  split
  · exact .inl rfl
  · right
    rw [Text.toList_join, Text.splitOn, List.map_map, List.map_map]
    refine congrArg (Chars.join ['.']) (List.map_congr_left fun w hw => ?_)
    -- a star is no plain character, so no part is left without its backticks
    have hstar : String.ofList w ≠ "*" := by
      intro he
      have hmem : '*' ∈ w := by
        rw [← String.toList_ofList (l := w), he]
        decide
      have hplain := h '*' (Chars.mem_of_mem_splitWhere hw hmem)
      exact absurd rfl (Name.not_special_of_isPlainChar hplain).2.2
    simp [quotePart, hstar]

/-- The backticks of a quoted name are all that quoting adds to it. -/
theorem filter_quoteParts (h : Text.IsOver Name.isPlainChar n) :
    (quoteParts n).toList.filter (· ≠ '\x60') = n.toList := by
  rcases quoteParts_eq_or h with hq | hq
  · rw [hq]
    exact Name.filter_backtick h
  · have hparts : ((Chars.splitOn '.' n.toList).map fun w => '\x60' :: (w ++ ['\x60'])).map
        (List.filter (· ≠ '\x60')) = Chars.splitOn '.' n.toList := by
      rw [List.map_map]
      refine (List.map_congr_left fun w hw => ?_).trans (List.map_id _)
      have hself := Name.filter_backtick fun c hc => h c (Chars.mem_of_mem_splitWhere hw hc)
      simpa using hself
    rw [hq, Chars.filter_join, hparts]
    exact Chars.join_splitOn '.' n.toList

/-- Quoting makes no keyword of a name. -/
theorem parse?_quoteParts (h : Name.IsPlain n) : Keyword.parse? (quoteParts n) = none := by
  rcases quoteParts_eq_or h.isOver with hq | hq
  · rw [hq]
    exact h.notKeyword
  · refine Keyword.parse?_of_has_backtick ?_
    rw [hq]
    cases hs : Chars.splitOn '.' n.toList with
    | nil => exact absurd hs (Chars.splitWhere_ne_nil _ _)
    | cons w ws => cases ws <;> simp [Chars.join]

end Dialect

namespace Scope

variable {s : Scope} {n : String}

/-- The key of a plain field is one word, and that word is the name of the field. -/
theorem scan_key (hd : s.renderer.dialect = .generic ∨ s.renderer.dialect = .mysql)
    (ha : s.aliases = {}) (h : Name.IsPlain n) : Token.scan (s.key n) = [.word n] := by
  have hword : Text.IsOver Token.isWordChar n := h.isOver.mono fun c hc => by
    simp [Token.isWordChar, hc]
  rw [key_eq_quote ha h.noPlaceholder, quote]
  refine Token.scan_of_filter_eq h.ne_empty (Dialect.isOver_quote hd (by decide) (by decide) hword)
    ?_ ?_
  · rcases hd with hd | hd
    · rw [hd, Dialect.quote_generic]
      exact h.notKeyword
    · rw [hd, Dialect.quote_mysql]
      exact Dialect.parse?_quoteParts h
  · rcases hd with hd | hd
    · rw [hd, Dialect.quote_generic]
      exact Name.filter_backtick h.isOver
    · rw [hd, Dialect.quote_mysql]
      exact Dialect.filter_quoteParts h.isOver

end Scope

end SqlSelect
