import SqlSelect.Proofs.Text.Trimmed

/-!
# Resolving placeholders twice

Placeholders are resolved once, and what comes of it is resolved again under the same prefix.

* `TableName.Closes`, `TableName.HasPlaceholder`: where a placeholder stands in a text, said without
  the search for it (`TableName.closes_iff_isSome`);
* `TableName.expandChars_eq_self_iff`: under a prefix without two underscores in a row, resolving
  changes a text just if there is a placeholder in it;
* `TableName.names`, `TableName.IsSettled`: the placeholders that are found in a text, and those of
  which nothing is left that may be read as a placeholder again: a capital letter in the name has
  become a small one, and a name that does not begin with an underscore does not go on what stands
  before it;
* `TableName.expand_expand_iff`: when resolving twice is resolving once. A name of digits, dashes and
  underscores that begins with an underscore can join with an underscore of the prefix.
-/

namespace SqlSelect

namespace TableName

/-! ### Placeholders in a text -/

/-- The characters begin with a name that two underscores close. -/
def Closes (cs : List Char) : Prop :=
  ∃ name rest, cs = name ++ '_' :: '_' :: rest ∧ name ≠ [] ∧
    ∀ c ∈ name, isPlaceholderChar c = true

/-- Somewhere in the characters there is a placeholder. -/
def HasPlaceholder (cs : List Char) : Prop :=
  ∃ before behind, cs = before ++ '_' :: '_' :: behind ∧ Closes behind

variable {pre cs ds as name rest : List Char} {c d : Char}

theorem not_closes_nil : ¬ Closes [] := by
  rintro ⟨name, rest, h, -, -⟩
  exact absurd h.symm (List.append_ne_nil_of_right_ne_nil _ (List.cons_ne_nil _ _))

/-- A name of one character closes at once, and a longer one behind its first character. -/
theorem closes_cons : Closes (c :: cs) ↔
    isPlaceholderChar c = true ∧ ((∃ rest, cs = '_' :: '_' :: rest) ∨ Closes cs) := by
  constructor
  · rintro ⟨name, rest, h, hne, hall⟩
    obtain ⟨a, name, rfl⟩ := List.exists_cons_of_ne_nil hne
    obtain ⟨rfl, rfl⟩ := List.cons.inj h
    obtain ⟨hc, hname⟩ := List.forall_mem_cons.1 hall
    refine ⟨hc, ?_⟩
    by_cases hnil : name = []
    · rw [hnil]
      exact .inl ⟨rest, rfl⟩
    · exact .inr ⟨name, rest, rfl, hnil, hname⟩
  · rintro ⟨hc, ⟨rest, rfl⟩ | ⟨name, rest, rfl, -, hname⟩⟩
    · exact ⟨[c], rest, rfl, List.cons_ne_nil _ _, List.forall_mem_singleton.2 hc⟩
    · exact ⟨c :: name, rest, rfl, List.cons_ne_nil _ _, List.forall_mem_cons.2 ⟨hc, hname⟩⟩

theorem Closes.underscore_cons (h : Closes cs) : Closes ('_' :: cs) :=
  closes_cons.2 ⟨by decide, .inr h⟩

/-- The search finds a name just if there is one. -/
theorem closes_iff_isSome : Closes cs ↔ (closing? cs).isSome = true := by
  fun_induction closing? cs with
  | case1 => simpa using not_closes_nil
  | case2 c hc rest => simp [closes_cons, hc]
  | case3 c cs hc hopen ih =>
    rw [closes_cons, Option.isSome_map, ← ih]
    constructor
    · rintro ⟨-, ⟨rest, rfl⟩ | h⟩
      · exact absurd rfl (hopen rest)
      · exact h
    · exact fun h => ⟨hc, .inr h⟩
  | case4 c cs hc => simp [closes_cons, hc]

theorem closes_of_closing? (h : closing? cs = some (name, rest)) : Closes cs :=
  closes_iff_isSome.2 (by rw [h]; rfl)

theorem not_closes_of_closing? (h : closing? cs = none) : ¬ Closes cs := by
  rw [closes_iff_isSome, h]
  exact Bool.false_ne_true

theorem not_hasPlaceholder_nil : ¬ HasPlaceholder [] := by
  rintro ⟨before, behind, h, -⟩
  exact absurd h.symm (List.append_ne_nil_of_right_ne_nil _ (List.cons_ne_nil _ _))

/-- A placeholder stands at the front or further behind. -/
theorem hasPlaceholder_cons : HasPlaceholder (c :: cs) ↔
    (c = '_' ∧ ∃ ds, cs = '_' :: ds ∧ Closes ds) ∨ HasPlaceholder cs := by
  constructor
  · rintro ⟨before, behind, h, hcloses⟩
    cases before with
    | nil =>
      obtain ⟨rfl, rfl⟩ := List.cons.inj h
      exact .inl ⟨rfl, behind, rfl, hcloses⟩
    | cons b before =>
      obtain ⟨rfl, rfl⟩ := List.cons.inj h
      exact .inr ⟨before, behind, rfl, hcloses⟩
  · rintro (⟨rfl, ds, rfl, hcloses⟩ | ⟨before, behind, rfl, hcloses⟩)
    · exact ⟨[], ds, rfl, hcloses⟩
    · exact ⟨c :: before, behind, rfl, hcloses⟩

theorem not_hasPlaceholder_singleton (c : Char) : ¬ HasPlaceholder [c] := by
  rw [hasPlaceholder_cons]
  rintro (⟨-, ds, h, -⟩ | h)
  · cases h
  · exact not_hasPlaceholder_nil h

/-! ### Texts that resolving does not change -/

/-- A character at which no placeholder begins stays. -/
theorem expandChars_cons_cons (h : c = '_' → d = '_' → closing? cs = none) :
    expandChars pre (c :: d :: cs) = c :: expandChars pre (d :: cs) := by
  rw [expandChars]
  split
  · next hcd =>
    split
    · next name rest hname =>
      rw [h hcd.1 hcd.2] at hname
      cases hname
    · rfl
  · rfl

/-- A text without a placeholder stays as it is. -/
theorem expandChars_of_not_hasPlaceholder (h : ¬ HasPlaceholder cs) : expandChars pre cs = cs := by
  fun_induction expandChars pre cs with
  | case1 => rfl
  | case2 => rfl
  | case3 c d cs hcd name rest hname =>
    obtain ⟨rfl, rfl⟩ := hcd
    exact absurd (hasPlaceholder_cons.2 (.inl ⟨rfl, cs, rfl, closes_of_closing? hname⟩)) h
  | case4 c d cs _ _ ih => rw [ih fun hd => h (hasPlaceholder_cons.2 (.inr hd))]
  | case5 c d cs _ ih => rw [ih fun hd => h (hasPlaceholder_cons.2 (.inr hd))]

/-- A placeholder has four characters besides its name. -/
theorem length_expandChars_le (hpre : pre.length ≤ 4) :
    (expandChars pre cs).length ≤ cs.length := by
  fun_induction expandChars pre cs with
  | case1 => exact le_rfl
  | case2 => exact le_rfl
  | case3 c d cs _ name rest hname _ ih =>
    have hlength := congrArg List.length (eq_of_closing? hname).1
    simp only [List.length_append, List.length_cons, Chars.lowerAscii, List.length_map] at hlength ⊢
    omega
  | case4 c d cs _ _ ih => exact Nat.succ_le_succ ih
  | case5 c d cs _ ih => exact Nat.succ_le_succ ih

/-- A name in the place of a placeholder is never the placeholder: a prefix of two characters or
more would have to begin with two underscores, and under a shorter one the text gets shorter. -/
theorem resolved_ne (hpre : ¬ ['_', '_'] <:+: pre) (h : closing? cs = some (name, rest)) :
    pre ++ Chars.lowerAscii name ++ expandChars pre rest ≠ '_' :: '_' :: cs := by
  intro he
  have hlong : 2 ≤ pre.length := by
    by_contra hshort
    have hrest : (expandChars pre rest).length ≤ rest.length := length_expandChars_le (by omega)
    have hlength := congrArg List.length he
    rw [(eq_of_closing? h).1] at hlength
    simp only [List.length_append, List.length_cons, Chars.lowerAscii, List.length_map] at hlength
    omega
  rcases pre with _ | ⟨a, _ | ⟨b, pre⟩⟩
  · exact absurd hlong (by decide)
  · exact absurd hlong (by simp)
  · simp only [List.cons_append, List.cons.injEq] at he
    obtain ⟨rfl, rfl, -⟩ := he
    exact hpre (List.prefix_append ['_', '_'] pre).isInfix

/-- Resolving changes a text just if there is a placeholder in it. -/
theorem expandChars_eq_self_iff (hpre : ¬ ['_', '_'] <:+: pre) :
    expandChars pre cs = cs ↔ ¬ HasPlaceholder cs := by
  refine ⟨fun h => ?_, expandChars_of_not_hasPlaceholder⟩
  fun_induction expandChars pre cs with
  | case1 => exact not_hasPlaceholder_nil
  | case2 c => exact not_hasPlaceholder_singleton c
  | case3 c d cs hcd name rest hname =>
    obtain ⟨rfl, rfl⟩ := hcd
    exact absurd h (resolved_ne hpre hname)
  | case4 c d cs _ hname ih =>
    rw [hasPlaceholder_cons]
    rintro (⟨-, ds, hds, hcloses⟩ | hrest)
    · obtain ⟨-, rfl⟩ := List.cons.inj hds
      exact not_closes_of_closing? hname hcloses
    · exact ih (List.cons.inj h).2 hrest
  | case5 c d cs hcd ih =>
    rw [hasPlaceholder_cons]
    rintro (⟨hc, ds, hds, -⟩ | hrest)
    · exact hcd ⟨hc, (List.cons.inj hds).1⟩
    · exact ih (List.cons.inj h).2 hrest

/-! ### What a resolved text begins with -/

/-- Only a text that begins with an underscore is resolved to one. -/
theorem underscore_of_expandChars (h : expandChars pre cs = '_' :: ds) : ∃ es, cs = '_' :: es := by
  fun_cases expandChars pre cs with
  | case1 => simp at h
  | case2 c =>
    rw [expandChars_singleton] at h
    exact ⟨[], by rw [(List.cons.inj h).1]⟩
  | case3 c d cs hcd => exact ⟨d :: cs, by rw [hcd.1]⟩
  | case4 c d cs hcd => exact ⟨d :: cs, by rw [hcd.1]⟩
  | case5 c d cs hcd =>
    rw [expandChars, if_neg hcd] at h
    exact ⟨d :: cs, by rw [(List.cons.inj h).1]⟩

/-- And only one that begins with two to one that does so. -/
theorem underscores_of_expandChars (h : expandChars pre cs = '_' :: '_' :: ds) :
    ∃ es, cs = '_' :: '_' :: es := by
  fun_cases expandChars pre cs with
  | case1 => simp at h
  | case2 c => simp at h
  | case3 c d cs hcd => exact ⟨cs, by rw [hcd.1, hcd.2]⟩
  | case4 c d cs hcd => exact ⟨cs, by rw [hcd.1, hcd.2]⟩
  | case5 c d cs hcd =>
    rw [expandChars, if_neg hcd] at h
    obtain ⟨rfl, htail⟩ := List.cons.inj h
    obtain ⟨es, hes⟩ := underscore_of_expandChars htail
    exact absurd ⟨rfl, (List.cons.inj hes).1⟩ hcd

/-- No name closes in a resolved text that did not close before. -/
theorem closes_of_expandChars (h : Closes (expandChars pre cs)) : Closes cs := by
  fun_induction expandChars pre cs with
  | case1 => exact h
  | case2 => exact h
  | case3 c d cs hcd name rest hname =>
    obtain ⟨rfl, rfl⟩ := hcd
    exact (closes_of_closing? hname).underscore_cons.underscore_cons
  | case4 c d cs _ _ ih =>
    obtain ⟨hc, ⟨rest, hrest⟩ | htail⟩ := closes_cons.1 h
    · exact closes_cons.2 ⟨hc, .inl (underscores_of_expandChars hrest)⟩
    · exact closes_cons.2 ⟨hc, .inr (ih htail)⟩
  | case5 c d cs _ ih =>
    obtain ⟨hc, ⟨rest, hrest⟩ | htail⟩ := closes_cons.1 h
    · exact closes_cons.2 ⟨hc, .inl (underscores_of_expandChars hrest)⟩
    · exact closes_cons.2 ⟨hc, .inr (ih htail)⟩

/-- Nor behind an underscore that stays at the front. -/
theorem closes_of_expandChars_cons (h : expandChars pre ('_' :: cs) = '_' :: ds)
    (hds : Closes ds) : Closes cs := by
  cases cs with
  | nil =>
    rw [expandChars_singleton] at h
    rw [← (List.cons.inj h).2] at hds
    exact absurd hds not_closes_nil
  | cons d cs =>
    cases hname : closing? cs with
    | some r =>
      by_cases hd : d = '_'
      · rw [hd]
        exact (closes_of_closing? hname).underscore_cons
      · rw [expandChars_cons_cons fun _ h => absurd h hd] at h
        rw [← (List.cons.inj h).2] at hds
        exact closes_of_expandChars hds
    | none =>
      rw [expandChars_cons_cons fun _ _ => hname] at h
      rw [← (List.cons.inj h).2] at hds
      exact closes_of_expandChars hds

/-! ### Names of placeholders -/

/-- The names of the placeholders of a text, as they are found from the left. -/
def names : List Char → List (List Char)
  | [] => []
  | [_] => []
  | c :: d :: cs =>
    if c = '_' ∧ d = '_' then
      match h : closing? cs with
      | some (name, rest) =>
        have := length_lt_of_closing? h
        name :: names rest
      | none => names (d :: cs)
    else names (d :: cs)
  termination_by cs => cs.length

/-- A name that does not begin with an underscore, or has a capital letter. -/
def IsSettled (name : List Char) : Prop := name.head? ≠ some '_' ∨ name.any Char.isUpper = true

instance (name : List Char) : Decidable (IsSettled name) :=
  inferInstanceAs (Decidable (_ ∨ _))

theorem names_of_closing? (h : closing? cs = some (name, rest)) :
    names ('_' :: '_' :: cs) = name :: names rest := by
  rw [names, if_pos ⟨rfl, rfl⟩]
  split
  · next name' rest' hname =>
    rw [h] at hname
    cases hname
    rfl
  · next hname =>
    rw [h] at hname
    cases hname

theorem names_cons_cons (h : c = '_' → d = '_' → closing? cs = none) :
    names (c :: d :: cs) = names (d :: cs) := by
  rw [names]
  split
  · next hcd =>
    split
    · next name rest hname =>
      rw [h hcd.1 hcd.2] at hname
      cases hname
    · rfl
  · rfl

/-- The name is the shortest that closes: behind its first character there are no two underscores in
a row, not even with the first of those that close it. -/
theorem not_infix_of_closing? (h : closing? cs = some (name, rest)) :
    ¬ ['_', '_'] <:+: name.tail ++ ['_'] := by
  fun_induction closing? cs generalizing name with
  | case1 => simp at h
  | case2 c _ r =>
    obtain ⟨rfl, rfl⟩ : [c] = name ∧ r = rest := by simpa using h
    exact (by decide : ¬ ['_', '_'] <:+: ['_'])
  | case3 c cs _ hopen ih =>
    simp only [Option.map_eq_some_iff, Prod.mk.injEq, Prod.exists] at h
    obtain ⟨n, r, hn, rfl, rfl⟩ := h
    obtain ⟨hcs, hne⟩ := eq_of_closing? hn
    obtain ⟨a, n, rfl⟩ := List.exists_cons_of_ne_nil hne
    rw [List.tail_cons, List.cons_append, List.infix_cons_iff]
    rintro (hfront | hinfix)
    · -- two underscores at the front would have closed a name of one character
      obtain ⟨rfl, hsecond⟩ := List.cons_prefix_cons.1 hfront
      cases n with
      | nil => exact hopen _ hcs
      | cons b n =>
        obtain ⟨rfl, -⟩ := List.cons_prefix_cons.1 hsecond
        exact hopen _ hcs
    · exact ih hn hinfix
  | case4 => simp at h

/-! ### Small letters -/

theorem toLower_eq_underscore_iff : c.toLower = '_' ↔ c = '_' := by
  constructor
  · intro h
    rcases Chars.toLower_eq_self_or c with hc | hc
    · rwa [hc] at h
    · rw [h] at hc
      exact absurd hc (by decide)
  · rintro rfl
    decide

/-- No name of a placeholder has small letters. -/
theorem isPlaceholderChar_toLower (h : c.isUpper = true) :
    isPlaceholderChar c.toLower = false := by
  have hlt : c.toNat < 128 := by
    simp only [Char.isUpper, decide_eq_true_eq] at h
    exact Nat.lt_of_le_of_lt (UInt32.le_iff_toNat_le.1 h.2) (by decide)
  have hall : ∀ n < 128, (Char.ofNat n).isUpper = true →
      isPlaceholderChar (Char.ofNat n).toLower = false := by decide
  simpa using hall c.toNat hlt (by simpa using h)

/-- Small letters have the underscores of the name. -/
theorem infix_of_lowerAscii (h : ['_', '_'] <:+: Chars.lowerAscii as) : ['_', '_'] <:+: as := by
  obtain ⟨bs, hbs, heq⟩ := List.infix_map_iff.1 h
  match bs with
  | [a, b] =>
    simp only [List.map_cons, List.map_nil, List.cons.injEq, and_true] at heq
    rwa [toLower_eq_underscore_iff.1 heq.1.symm, toLower_eq_underscore_iff.1 heq.2.symm] at hbs
  | [] => simp at heq
  | [_] => simp at heq
  | _ :: _ :: _ :: _ => simp at heq

/-! ### What is left of a placeholder -/

/-- A name that would have to go on over a character that no name has does not close. -/
theorem not_closes_append_cons (has : ¬ ['_', '_'] <:+: as) (hd : isPlaceholderChar d = false) :
    ¬ Closes (as ++ d :: cs) := by
  have hne : d ≠ '_' := by
    rintro rfl
    exact absurd hd (by decide)
  induction as with
  | nil =>
    intro h
    exact absurd (closes_cons.1 h).1 (by rw [hd]; exact Bool.false_ne_true)
  | cons a as ih =>
    rw [List.cons_append, closes_cons]
    rintro ⟨-, ⟨rest, hrest⟩ | hcloses⟩
    · match as with
      | [] => exact hne (List.cons.inj hrest).1
      | [_] => exact hne (List.cons.inj (List.cons.inj hrest).2).1
      | b :: b' :: as' =>
        obtain ⟨rfl, htail⟩ := List.cons.inj hrest
        obtain ⟨rfl, -⟩ := List.cons.inj htail
        exact has (List.infix_cons (List.prefix_append ['_', '_'] as').isInfix)
    · exact ih (fun h => has (List.infix_cons h)) hcloses

/-- A text without a placeholder gets none by characters in front of it that have no two underscores
in a row, unless an underscore at their end makes one with the front of the text. -/
theorem not_hasPlaceholder_append (has : ¬ ['_', '_'] <:+: as) (hcs : ¬ HasPlaceholder cs)
    (hmeet : as.getLast? = some '_' → ∀ ds, cs = '_' :: ds → ¬ Closes ds) :
    ¬ HasPlaceholder (as ++ cs) := by
  induction as with
  | nil => exact hcs
  | cons a as ih =>
    rw [List.cons_append, hasPlaceholder_cons]
    rintro (⟨rfl, ds, hds, hcloses⟩ | hrest)
    · cases as with
      | nil => exact hmeet rfl ds hds hcloses
      | cons b as =>
        obtain ⟨rfl, -⟩ := List.cons.inj hds
        exact has (List.prefix_append ['_', '_'] as).isInfix
    · refine ih (fun h => has (List.infix_cons h)) (fun hlast => hmeet ?_) hrest
      cases as with
      | nil => cases hlast
      | cons b as => rwa [List.getLast?_cons_cons]

/-- Behind an underscore, a settled name in small letters does not close: there is a letter. -/
theorem not_closes_lowerAscii (hlazy : ¬ ['_', '_'] <:+: as ++ ['_'])
    (hs : IsSettled ('_' :: as)) (cs : List Char) : ¬ Closes (Chars.lowerAscii as ++ cs) := by
  have hupper : as.any Char.isUpper = true := by
    simpa [IsSettled] using hs
  obtain ⟨d, hd, hdu⟩ := List.any_eq_true.1 hupper
  obtain ⟨front, back, rfl⟩ := List.append_of_mem hd
  have hfront : ¬ ['_', '_'] <:+: Chars.lowerAscii front := fun h => by
    have hprefix : front <+: front ++ d :: back ++ ['_'] :=
      (List.prefix_append front _).trans (List.prefix_append _ _)
    exact hlazy ((infix_of_lowerAscii h).trans hprefix.isInfix)
  rw [Chars.lowerAscii, List.map_append, List.map_cons, List.append_assoc, List.cons_append]
  exact not_closes_append_cons hfront (isPlaceholderChar_toLower hdu)

/-- A resolved name that is settled leaves no placeholder, neither in itself nor where it meets the
prefix before it and the text behind it. -/
theorem not_hasPlaceholder_resolved (hpre : ¬ ['_', '_'] <:+: pre)
    (hname : closing? cs = some (name, rest)) (hs : IsSettled name) (hds : ¬ HasPlaceholder ds) :
    ¬ HasPlaceholder (pre ++ Chars.lowerAscii name ++ ds) := by
  have hlazy := not_infix_of_closing? hname
  obtain ⟨c, as, rfl⟩ := List.exists_cons_of_ne_nil (eq_of_closing? hname).2
  rw [List.tail_cons] at hlazy
  have hopen : c.toLower = '_' → ¬ Closes (Chars.lowerAscii as ++ ds) := fun hc => by
    rw [toLower_eq_underscore_iff.1 hc] at hs
    exact not_closes_lowerAscii hlazy hs ds
  have hlower : ¬ ['_', '_'] <:+: Chars.lowerAscii as ++ ['_'] := fun h =>
    hlazy (infix_of_lowerAscii (by simpa [Chars.lowerAscii] using h))
  -- the name behind its first character has no two underscores, and does not end in one
  have htail : ¬ HasPlaceholder (Chars.lowerAscii as ++ ds) := by
    refine not_hasPlaceholder_append
      (fun h => hlower (h.trans (List.prefix_append _ _).isInfix)) hds fun hlast => ?_
    obtain ⟨front, hfront⟩ := List.getLast?_eq_some_iff.1 hlast
    rw [hfront, List.append_assoc] at hlower
    exact absurd (List.suffix_append front ['_', '_']).isInfix hlower
  have hwhole : ¬ HasPlaceholder (c.toLower :: (Chars.lowerAscii as ++ ds)) := by
    rw [hasPlaceholder_cons]
    rintro (⟨hc, es, hes, hcloses⟩ | h)
    · refine hopen hc ?_
      rw [hes]
      exact hcloses.underscore_cons
    · exact htail h
  rw [List.append_assoc]
  refine not_hasPlaceholder_append hpre hwhole fun _ es hes => ?_
  obtain ⟨hc, rfl⟩ := List.cons.inj hes
  exact hopen hc

/-- Resolving leaves no placeholder if all names in the text are settled. -/
theorem not_hasPlaceholder_expandChars (hpre : ¬ ['_', '_'] <:+: pre)
    (hnames : ∀ name ∈ names cs, IsSettled name) : ¬ HasPlaceholder (expandChars pre cs) := by
  fun_induction expandChars pre cs with
  | case1 => exact not_hasPlaceholder_nil
  | case2 c => exact not_hasPlaceholder_singleton c
  | case3 c d cs hcd name rest hname _ ih =>
    obtain ⟨rfl, rfl⟩ := hcd
    rw [names_of_closing? hname] at hnames
    obtain ⟨hs, hrest⟩ := List.forall_mem_cons.1 hnames
    exact not_hasPlaceholder_resolved hpre hname hs (ih hrest)
  | case4 c d cs hcd hname ih =>
    obtain ⟨rfl, rfl⟩ := hcd
    rw [names_cons_cons fun _ _ => hname] at hnames
    rw [hasPlaceholder_cons]
    rintro (⟨-, ds, hds, hcloses⟩ | hrest)
    · exact not_closes_of_closing? hname (closes_of_expandChars_cons hds hcloses)
    · exact ih hnames hrest
  | case5 c d cs hcd ih =>
    rw [names_cons_cons fun hc hd => absurd ⟨hc, hd⟩ hcd] at hnames
    rw [hasPlaceholder_cons]
    rintro (⟨hc, ds, hds, -⟩ | hrest)
    · obtain ⟨es, hes⟩ := underscore_of_expandChars hds
      exact hcd ⟨hc, (List.cons.inj hes).1⟩
    · exact ih hnames hrest

/-! ### Twice and once -/

/-- Under a prefix without two underscores in a row, resolving twice is resolving once just if the
first time has left no placeholder. It leaves none if each name has a capital letter or does not
begin with an underscore. -/
theorem expand_expand_iff {pre : String} (hpre : ¬ ['_', '_'] <:+: pre.toList) (s : String) :
    (expand pre (expand pre s) = expand pre s ↔ ¬ HasPlaceholder (expand pre s).toList) ∧
      ((∀ name ∈ names s.toList, IsSettled name) → expand pre (expand pre s) = expand pre s) := by
  have hiff : expand pre (expand pre s) = expand pre s ↔
      ¬ HasPlaceholder (expand pre s).toList := by
    rw [← expandChars_eq_self_iff hpre, expand, ← String.toList_inj, String.toList_ofList]
  refine ⟨hiff, fun hnames => hiff.2 ?_⟩
  rw [expand, String.toList_ofList]
  exact not_hasPlaceholder_expandChars hpre hnames

/-- Names with capital letters are settled, whatever stands around them. In the second text the
underscore at the end of the prefix and the one at the front of the name begin a placeholder that
was none, and the second time resolves it. -/
theorem expand_expand_thinkSample :
    ¬ ['_', '_'] <:+: "think_".toList ∧
      (∀ name ∈ names "___A1____USER__ __2-3__".toList, IsSettled name) ∧
      expand "think_" (expand "think_" "___A1____USER__ __2-3__") =
        expand "think_" "___A1____USER__ __2-3__" ∧
      expand "think_" "___1____" = "think__1__" ∧ expand "think_" "think__1__" = "thinkthink_1" ∧
      HasPlaceholder (expand "think_" "___1____").toList := by
  have hpre : ¬ ['_', '_'] <:+: "think_".toList := by decide
  have hnames : ∀ name ∈ names "___A1____USER__ __2-3__".toList, IsSettled name := by
    decide +kernel
  have honce : expand "think_" "___1____" = "think__1__" := by decide +kernel
  have htwice : expand "think_" "think__1__" = "thinkthink_1" := by decide +kernel
  refine ⟨hpre, hnames, (expand_expand_iff hpre _).2 hnames, honce, htwice, ?_⟩
  by_contra hnone
  have hsame := (expand_expand_iff hpre "___1____").1.2 hnone
  rw [honce, htwice] at hsame
  exact absurd hsame (by decide)

end TableName

end SqlSelect
