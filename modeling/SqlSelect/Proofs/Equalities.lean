import SqlSelect.Proofs.Text.Words

/-!
# Conditions of a join in words

A condition of a join in words is cut at its first equals sign, unless what stands directly beside
the sign makes it another operator. What else is in the two sides does not matter.

* `JoinOn.Splits text left right`: which texts are cut, and into which sides
  (`JoinOn.ofText_eq_iff`);
* `JoinOn.IsColumnEquality text left right`: an equality of two words, and nothing more;
* `Scope.key_of_isExpression`, `Scope.key_of_alias`: a side that is an expression stands as it is,
  and another one under the alias of its table;
* `Scope.joinOn_ofText`: how a text is written, and which of those that are cut are equalities.
-/

namespace SqlSelect

/-! ### The first separator -/

theorem Chars.splitFirst?_eq_some_iff {sep : Char} {cs before after : List Char} :
    splitFirst? sep cs = some (before, after) ↔ cs = before ++ sep :: after ∧ sep ∉ before := by
  constructor
  · intro h
    have hcs := eq_of_splitFirst? h
    obtain ⟨rest, -, hrest⟩ := exists_splitFirst?_append_cons sep before after
    rw [hcs, hrest, Option.some.injEq, Prod.mk.injEq] at h
    refine ⟨hcs, fun hsep => ?_⟩
    rw [← h.1] at hsep
    simpa using List.mem_takeWhile_imp hsep
  · rintro ⟨rfl, hsep⟩
    exact splitFirst?_append_cons hsep after

theorem Text.splitFirst?_eq_some_iff {sep : Char} {s front back : String} :
    splitFirst? sep s = some (front, back) ↔
      s = front ++ String.singleton sep ++ back ∧ sep ∉ front.toList := by
  have htext : s = front ++ String.singleton sep ++ back ↔
      s.toList = front.toList ++ sep :: back.toList := by
    rw [← String.toList_inj]
    simp
  rw [htext, ← Chars.splitFirst?_eq_some_iff, splitFirst?, Option.map_eq_some_iff]
  constructor
  · rintro ⟨⟨before, after⟩, hsplit, hsides⟩
    obtain ⟨rfl, rfl⟩ := Prod.mk.inj hsides
    simpa using hsplit
  · intro h
    exact ⟨_, h, by simp⟩

namespace JoinOn

variable {text left right front back : String}

/-! ### Which texts are cut -/

/-- The text is cut at its first equals sign. The sign does not stand directly behind `<`, `>` or
`!` or in front of another one, and the sides are not blank. -/
inductive Splits (text : String) : String → String → Prop
  | intro {front back : String} (htext : text = front ++ "=" ++ back) (hsign : '=' ∉ front.toList)
    (hfront : ∀ c ∈ front.toList.getLast?, c ∉ ['<', '>', '!'])
    (hback : back.toList.head? ≠ some '=') (hleft : Text.isBlank front = false)
    (hright : Text.isBlank back = false) : Splits text (Text.trim front) (Text.trim back)

/-- The characters of comparisons. -/
def signs : List Char := ['=', '<', '>', '!']

/-- The text is an equality of two words without signs of comparisons. -/
inductive IsColumnEquality (text : String) : String → String → Prop
  | intro {front back left right : String} (htext : text = front ++ "=" ++ back)
    (hfront : Text.Spaced [left] front) (hback : Text.Spaced [right] back)
    (hleft : Text.Lacks signs left) (hright : Text.Lacks signs right) :
    IsColumnEquality text left right

theorem isEquality_iff :
    isEquality front back = true ↔
      (∀ c ∈ front.toList.getLast?, c ∉ ['<', '>', '!']) ∧ back.toList.head? ≠ some '=' ∧
        Text.isBlank front = false ∧ Text.isBlank back = false := by
  simp only [isEquality, Bool.and_eq_true, Bool.not_eq_true', List.any_eq_false, beq_iff_eq,
    bne_iff_ne, and_assoc]
  refine and_congr_left' ⟨fun h c hlast hmem => h c hmem hlast, fun h c hmem hlast => ?_⟩
  exact h c hlast hmem

theorem ofText_of_isEquality (hsplit : Text.splitFirst? '=' text = some (front, back))
    (h : isEquality front back = true) :
    ofText text = .eq (Text.trim front) (Text.trim back) := by
  rw [ofText, hsplit]
  exact if_pos h

/-- A text is an equality of its sides exactly if it is cut into them. -/
theorem ofText_eq_iff : ofText text = .eq left right ↔ Splits text left right := by
  constructor
  · intro h
    unfold ofText at h
    cases hsplit : Text.splitFirst? '=' text with
    | none =>
      rw [hsplit] at h
      cases h
    | some sides =>
      obtain ⟨front, back⟩ := sides
      obtain ⟨htext, hsign⟩ := Text.splitFirst?_eq_some_iff.1 hsplit
      rw [hsplit] at h
      simp only at h
      split at h
      · next hequality =>
        obtain ⟨hfront, hback, hleft, hright⟩ := isEquality_iff.1 hequality
        cases h
        exact .intro htext hsign hfront hback hleft hright
      · cases h
  · rintro ⟨htext, hsign, hfront, hback, hleft, hright⟩
    have hequality := isEquality_iff.2 ⟨hfront, hback, hleft, hright⟩
    exact ofText_of_isEquality (Text.splitFirst?_eq_some_iff.2 ⟨htext, hsign⟩) hequality

/-- Any other text stays what it is, but for white space at its ends. -/
theorem ofText_of_not_splits (h : ∀ left right, ¬ Splits text left right) :
    ofText text = .text (Text.trim text) := by
  cases hsplit : Text.splitFirst? '=' text with
  | none => rw [ofText, hsplit]
  | some sides =>
    obtain ⟨front, back⟩ := sides
    cases hequality : isEquality front back with
    | true =>
      exact absurd (ofText_eq_iff.1 (ofText_of_isEquality hsplit hequality)) (h _ _)
    | false =>
      rw [ofText, hsplit]
      exact if_neg (by rw [hequality]; exact Bool.false_ne_true)

theorem Splits.ne_empty (h : Splits text left right) : ∀ side ∈ [left, right], side ≠ "" := by
  cases h with
  | intro _ _ _ _ hleft hright =>
    exact List.forall_mem_cons.2
      ⟨of_decide_eq_false hleft, List.forall_mem_singleton.2 (of_decide_eq_false hright)⟩

/-! ### Which of them are equalities -/

/-- An equality is cut, and its sides are words without signs. Nothing else that is cut has such
sides. -/
theorem isColumnEquality_iff_splits :
    IsColumnEquality text left right ↔
      Splits text left right ∧ Text.IsWordWithout signs left ∧ Text.IsWordWithout signs right := by
  constructor
  · rintro ⟨htext, hfront, hback, hleft, hright⟩
    have hwhite : signs.any Chars.isWhiteSpace = false := by decide
    have hfrontLacks := hfront.lacks hwhite (List.forall_mem_singleton.2 hleft)
    have hbackLacks := hback.lacks hwhite (List.forall_mem_singleton.2 hright)
    refine ⟨?_, ⟨hfront.isWord, hleft⟩, ⟨hback.isWord, hright⟩⟩
    rw [← hfront.trim_eq, ← hback.trim_eq]
    refine .intro htext (hfrontLacks '=' (by decide)) (fun c hc hmem => ?_) (fun hhead => ?_) ?_ ?_
    · exact hfrontLacks c (List.mem_cons_of_mem _ hmem) (List.mem_of_getLast? hc)
    · exact hbackLacks '=' (by decide) (List.mem_of_mem_head? hhead)
    · exact decide_eq_false hfront.trim_ne_empty
    · exact decide_eq_false hback.trim_ne_empty
  · rintro ⟨⟨htext, -, -, -, -, -⟩, hleft, hright⟩
    exact .intro htext (Text.spaced_trim hleft.toIsWord) (Text.spaced_trim hright.toIsWord)
      hleft.lacks hright.lacks

/-- A side that is no such word is an expression, unless it has an exclamation mark in it. -/
theorem isExpression_of_not_isWordWithout {side : String} (hne : side ≠ "")
    (h : ¬ Text.IsWordWithout signs side) (hmark : '!' ∉ side.toList) :
    Name.isExpression side = true := by
  by_contra hname
  have hchars : ∀ c ∈ side.toList, Name.isExpressionChar c = false := by
    simpa [Name.isExpression] using hname
  refine h ⟨⟨hne, ?_⟩, ?_⟩
  · rw [Text.hasWhiteSpace, List.any_eq_false]
    intro c hc hspace
    have hchar := hchars c hc
    simp [Name.isExpressionChar, hspace] at hchar
  · intro c hc hmem
    have hcases : c = '!' ∨ Name.isExpressionChar c = true := by
      simp only [signs, List.mem_cons, List.not_mem_nil, or_false] at hc
      rcases hc with rfl | rfl | rfl | rfl <;> decide
    rcases hcases with rfl | hchar
    · exact hmark hmem
    · rw [hchars c hmem] at hchar
      cases hchar

end JoinOn

/-! ### How the sides are written -/

/-- What makes a text an expression is not in a placeholder. -/
theorem Name.isPlaceholderChar_of_isExpressionChar {c : Char} (h : isExpressionChar c = true) :
    TableName.isPlaceholderChar c = false := by
  rw [Bool.eq_false_iff]
  intro hplaceholder
  have hcases : isPlainChar c = true ∨ c = '-' := by
    simp only [TableName.isPlaceholderChar, Bool.or_eq_true, beq_iff_eq] at hplaceholder
    rcases hplaceholder with ((hupper | hdigit) | rfl) | rfl
    · exact .inl (by simp [isPlainChar, Char.isAlphanum, Char.isAlpha, hupper])
    · exact .inl (by simp [isPlainChar, Char.isAlphanum, hdigit])
    · exact .inl (by decide)
    · exact .inr rfl
  rcases hcases with hplain | rfl
  · rw [isExpressionChar_of_isPlainChar hplain] at h
    cases h
  · exact absurd h (by decide)

/-- An expression stays one when its placeholders are resolved. -/
theorem TableName.isExpression_expand {side : String} (h : Name.isExpression side = true)
    (pre : String) : Name.isExpression (expand pre side) = true := by
  obtain ⟨c, hc, hchar⟩ := List.any_eq_true.1 h
  obtain ⟨before, after, hside⟩ := List.append_of_mem hc
  have hplaceholder := Name.isPlaceholderChar_of_isExpressionChar hchar
  rw [Name.isExpression, expand, String.toList_ofList, hside,
    expandChars_append_cons hplaceholder, List.any_append, List.any_cons, hchar]
  simp

namespace Scope

variable {s : Scope} {side owner column short : String}

/-- An expression stands as it is, without an alias in it. -/
theorem key_of_isExpression (h : Name.isExpression side = true) :
    s.key side = s.quote (s.expand side) := by
  have hexpand : Name.isExpression (s.expand side) = true := TableName.isExpression_expand h _
  rw [key, qualify]
  split
  · rw [if_pos hexpand]
  · rfl

/-- A column stands behind the alias of its table. -/
theorem key_of_alias (halias : s.aliases.get? (s.expand owner) = some short)
    (howner : Name.isExpression (s.expand owner) = false) (hdot : '.' ∉ (s.expand owner).toList)
    (hcolumn : Name.isExpression (s.expand column) = false) :
    s.key (owner ++ "." ++ column) = s.quote (short ++ "." ++ s.expand column) := by
  have hexpand : s.expand (owner ++ "." ++ column) = s.expand owner ++ "." ++ s.expand column :=
    TableName.expand_dot _ _ _
  rw [key, hexpand, qualify_dot hcolumn, qualifier_of_alias halias howner hdot]

/-- A condition of a join in words. Exactly the texts that can be cut are taken for equalities, and
any other text stands as it was written. The equalities of two words are cut; but so is any text
with such an equals sign, and its sides may hold further conditions. A side that is no word without
signs is an expression, or has an exclamation mark in it. An expression is written without an alias,
even beside a column that stands behind the alias of its table. -/
theorem joinOn_ofText (s : Scope) (text : String) :
    (∀ left right, JoinOn.ofText text = .eq left right ↔ JoinOn.Splits text left right) ∧
      ((∀ left right, ¬ JoinOn.Splits text left right) →
        JoinOn.ofText text = .text (Text.trim text) ∧
          s.joinOn (JoinOn.ofText text) = Text.trim text) ∧
      (∀ left right, JoinOn.IsColumnEquality text left right ↔
        JoinOn.Splits text left right ∧ Text.IsWordWithout JoinOn.signs left ∧
          Text.IsWordWithout JoinOn.signs right) ∧
      ∀ left right, JoinOn.Splits text left right →
        s.joinOn (JoinOn.ofText text) = s.key left ++ "=" ++ s.key right ∧
          ∀ side ∈ [left, right],
            (¬ Text.IsWordWithout JoinOn.signs side →
              Name.isExpression side = true ∨ '!' ∈ side.toList) ∧
            (Name.isExpression side = true → s.key side = s.quote (s.expand side)) ∧
            ∀ owner column short, side = owner ++ "." ++ column →
              s.aliases.get? (s.expand owner) = some short →
              Name.isExpression (s.expand owner) = false → '.' ∉ (s.expand owner).toList →
              Name.isExpression (s.expand column) = false →
              s.key side = s.quote (short ++ "." ++ s.expand column) := by
  refine ⟨fun left right => JoinOn.ofText_eq_iff, fun hnone => ?other,
    fun left right => JoinOn.isColumnEquality_iff_splits,
    fun left right hsplits => ⟨?written, ?sides⟩⟩
  case other =>
    rw [JoinOn.ofText_of_not_splits hnone]
    exact ⟨rfl, rfl⟩
  case written =>
    rw [JoinOn.ofText_eq_iff.2 hsplits]
    rfl
  case sides =>
    intro side hside
    refine ⟨fun hword => ?_, key_of_isExpression, ?_⟩
    · by_contra hnot
      rw [not_or] at hnot
      exact hnot.1 (JoinOn.isExpression_of_not_isWordWithout (hsplits.ne_empty side hside) hword
        hnot.2)
    · rintro owner column short rfl halias howner hdot hcolumn
      exact key_of_alias halias howner hdot hcolumn

/-- Two tables with their aliases. -/
def aliasedSample : Scope := ⟨{}, .ofList [("user", "u"), ("role", "r")]⟩

/-- An equality, a comparison, and an equality with a further condition behind it. In the last text
only the name in front of the sign is replaced by its alias. -/
theorem joinOn_ofText_furtherSample :
    let s := aliasedSample
    let further := "user.id = role.uid AND role.kind = 1"
    JoinOn.IsColumnEquality " user.id =role.uid" "user.id" "role.uid" ∧
      s.joinOn (JoinOn.ofText " user.id =role.uid") = "u.id=r.uid" ∧
      s.joinOn (JoinOn.ofText "user.id >= role.uid ") = "user.id >= role.uid" ∧
      JoinOn.Splits further "user.id" "role.uid AND role.kind = 1" ∧
      (∀ left right, ¬ JoinOn.IsColumnEquality further left right) ∧
      s.joinOn (JoinOn.ofText further) = "u.id=role.uid AND role.kind = 1" := by
  intro s further
  refine ⟨?equality, ?joined, ?comparison, ?further⟩
  case equality =>
    obtain ⟨hcut, -, hequality, -⟩ := joinOn_ofText s " user.id =role.uid"
    exact (hequality _ _).2 ⟨(hcut _ _).1 (by decide), ⟨by decide, by decide⟩, by decide, by decide⟩
  case joined =>
    obtain ⟨hcut, -, -, hwritten⟩ := joinOn_ofText s " user.id =role.uid"
    obtain ⟨hjoin, hsides⟩ := hwritten "user.id" "role.uid" ((hcut _ _).1 (by decide))
    have hleft := (hsides "user.id" (by simp)).2.2 "user" "id" "u" rfl (by decide +kernel)
      (by decide +kernel) (by decide +kernel) (by decide +kernel)
    have hright := (hsides "role.uid" (by simp)).2.2 "role" "uid" "r" rfl (by decide +kernel)
      (by decide +kernel) (by decide +kernel) (by decide +kernel)
    rw [hjoin, hleft, hright]
    decide +kernel
  case comparison =>
    obtain ⟨hcut, hother, -, -⟩ := joinOn_ofText s "user.id >= role.uid "
    have htext : JoinOn.ofText "user.id >= role.uid " = .text "user.id >= role.uid" := by decide
    have htrim : Text.trim "user.id >= role.uid " = "user.id >= role.uid" := by decide
    refine (hother fun left right hsplits => ?_).2.trans htrim
    have heq := (hcut left right).2 hsplits
    rw [htext] at heq
    cases heq
  case further =>
    obtain ⟨hcut, -, hequality, hwritten⟩ := joinOn_ofText s further
    have hof : JoinOn.ofText further = .eq "user.id" "role.uid AND role.kind = 1" := by decide
    have hsplits := (hcut _ _).1 hof
    refine ⟨hsplits, fun left right h => ?_, ?_⟩
    · obtain ⟨hleft, -, hright⟩ := (hequality left right).1 h
      have heq := (hcut left right).2 hleft
      rw [hof] at heq
      cases heq
      exact absurd hright.noSpace (by decide)
    · obtain ⟨hjoin, hsides⟩ := hwritten _ _ hsplits
      have hleft := (hsides "user.id" (by simp)).2.2 "user" "id" "u" rfl (by decide +kernel)
        (by decide +kernel) (by decide +kernel) (by decide +kernel)
      have hright := (hsides "role.uid AND role.kind = 1" (by simp)).2.1 (by decide)
      rw [hjoin, hleft, hright]
      decide +kernel

end Scope

end SqlSelect
