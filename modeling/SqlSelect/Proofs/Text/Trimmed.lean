import SqlSelect.Proofs.Clauses

/-!
# Trimmed texts

A text is trimmed if there is no white space at its two ends.

* `Chars.IsTrimmed`: the two ends, each by itself. Trimming changes a text unless it is trimmed
  (`Chars.trim_eq_self_iff`);
* `TableName.trim_expand`: a trimmed text stays so when its placeholders are resolved;
* `Scope.trim_qualify`: and when an alias takes the place of a table in it.
-/

namespace SqlSelect

namespace Chars

/-- There is no white space at either end. -/
structure IsTrimmed (cs : List Char) : Prop where
  front : ∀ c ∈ cs.head?, isWhiteSpace c = false
  back : ∀ c ∈ cs.getLast?, isWhiteSpace c = false

variable {cs ds : List Char}

/-- The front of a text in two parts is that of the first, unless this is empty. -/
theorem front_append (hcs : ∀ c ∈ cs.head?, isWhiteSpace c = false)
    (hds : cs = [] → ∀ c ∈ ds.head?, isWhiteSpace c = false) :
    ∀ c ∈ (cs ++ ds).head?, isWhiteSpace c = false := by
  cases cs with
  | nil => exact hds rfl
  | cons c cs => exact hcs

/-- The back of a text in two parts is that of the second, unless this is empty. -/
theorem back_append (hds : ∀ c ∈ ds.getLast?, isWhiteSpace c = false)
    (hcs : ds = [] → ∀ c ∈ cs.getLast?, isWhiteSpace c = false) :
    ∀ c ∈ (cs ++ ds).getLast?, isWhiteSpace c = false := by
  by_cases h : ds = []
  · rw [h, List.append_nil]
    exact hcs h
  · rw [List.getLast?_append_of_ne_nil _ h]
    exact hds

theorem back_cons {c : Char} (hds : ∀ d ∈ ds.getLast?, isWhiteSpace d = false) (hne : ds ≠ []) :
    ∀ d ∈ (c :: ds).getLast?, isWhiteSpace d = false := by
  rwa [← List.singleton_append, List.getLast?_append_of_ne_nil _ hne]

/-- The back of a part at the end. -/
theorem back_of_append (cs : List Char) (h : ∀ c ∈ (cs ++ ds).getLast?, isWhiteSpace c = false) :
    ∀ c ∈ ds.getLast?, isWhiteSpace c = false := by
  by_cases hds : ds = []
  · rw [hds]
    exact fun _ hc => absurd hc (Option.not_mem_none _)
  · rwa [List.getLast?_append_of_ne_nil _ hds] at h

theorem isTrimmed_of_forall (h : ∀ c ∈ cs, isWhiteSpace c = false) : IsTrimmed cs :=
  ⟨fun c hc => h c (List.mem_of_mem_head? hc), fun c hc => h c (List.mem_of_getLast? hc)⟩

theorem isTrimmed_trim (cs : List Char) : IsTrimmed (trim cs) := by
  refine ⟨fun c hc => ?_, getLast?_trimEnd _⟩
  have hprefix : trim cs <+: cs.dropWhile isWhiteSpace := by
    have hsuffix := List.dropWhile_suffix isWhiteSpace (l := (cs.dropWhile isWhiteSpace).reverse)
    rw [← List.reverse_prefix, List.reverse_reverse] at hsuffix
    exact hsuffix
  obtain ⟨ds, hds⟩ := hprefix
  have hhead : (cs.dropWhile isWhiteSpace).head? = some c := by
    rw [← hds, List.head?_append, Option.mem_def.1 hc]
    rfl
  have hfirst := List.head?_dropWhile_not isWhiteSpace cs
  rw [hhead] at hfirst
  simpa using hfirst

/-- Trimming leaves a text as it is just if it is trimmed. -/
theorem trim_eq_self_iff : trim cs = cs ↔ IsTrimmed cs := by
  constructor
  · exact fun h => h ▸ isTrimmed_trim cs
  · have hdrop : ∀ ds : List Char, (∀ c ∈ ds.head?, isWhiteSpace c = false) →
        ds.dropWhile isWhiteSpace = ds := by
      intro ds hds
      cases ds with
      | nil => rfl
      | cons d ds => simp [hds d rfl]
    intro h
    rw [trim, hdrop cs h.front, trimEnd, hdrop cs.reverse (by rw [List.head?_reverse]; exact h.back),
      List.reverse_reverse]

/-- A text of two trimmed parts with a character between them that is no white space. -/
theorem isTrimmed_append_cons {c : Char} (hc : isWhiteSpace c = false)
    (hcs : ∀ d ∈ cs.head?, isWhiteSpace d = false)
    (hds : ∀ d ∈ ds.getLast?, isWhiteSpace d = false) : IsTrimmed (cs ++ c :: ds) := by
  have hmiddle : ∀ d ∈ [c].getLast?, isWhiteSpace d = false := fun d hd => by
    rwa [← Option.some.inj (Option.mem_def.1 hd)]
  refine ⟨front_append hcs fun _ d hd => ?_, back_append ?_ fun h => absurd h (List.cons_ne_nil _ _)⟩
  · rwa [← Option.some.inj (Option.mem_def.1 hd)]
  · rw [← List.singleton_append]
    exact back_append hds fun _ => hmiddle

end Chars

theorem Text.trim_eq_self_iff {s : String} : trim s = s ↔ Chars.IsTrimmed s.toList := by
  rw [← Chars.trim_eq_self_iff, ← toList_trim, String.toList_inj]

/-- Trimming twice is trimming once. -/
theorem Text.trim_trim (s : String) : trim (trim s) = trim s := by
  rw [trim_eq_self_iff, toList_trim]
  exact Chars.isTrimmed_trim _

/-! ### Placeholders -/

namespace TableName

/-- The characters of the name of a placeholder. -/
theorem isPlaceholderChar_of_closing? {cs name rest : List Char}
    (h : closing? cs = some (name, rest)) : ∀ c ∈ name, isPlaceholderChar c = true := by
  fun_induction closing? cs generalizing name with
  | case1 => simp at h
  | case2 c hc r =>
    obtain ⟨rfl, rfl⟩ : [c] = name ∧ r = rest := by simpa using h
    exact List.forall_mem_singleton.2 hc
  | case3 c cs hc _ ih =>
    simp only [Option.map_eq_some_iff, Prod.mk.injEq, Prod.exists] at h
    obtain ⟨n, r, hn, rfl, rfl⟩ := h
    exact List.forall_mem_cons.2 ⟨hc, ih hn⟩
  | case4 => simp at h

/-- Names of placeholders are written in ASCII, without white space. -/
theorem isWhiteSpace_toLower {c : Char} (h : isPlaceholderChar c = true) :
    Chars.isWhiteSpace c.toLower = false := by
  have hlt : c.toNat < 128 := by
    simp only [isPlaceholderChar, Char.isUpper, Char.isDigit, Bool.or_eq_true, Bool.and_eq_true,
      decide_eq_true_eq, beq_iff_eq] at h
    rcases h with ((⟨-, h⟩ | ⟨-, h⟩) | rfl) | rfl
    · exact Nat.lt_of_le_of_lt (UInt32.le_iff_toNat_le.1 h) (by decide)
    · exact Nat.lt_of_le_of_lt (UInt32.le_iff_toNat_le.1 h) (by decide)
    · decide
    · decide
  have hall : ∀ n < 128, isPlaceholderChar (Char.ofNat n) = true →
      Chars.isWhiteSpace (Char.ofNat n).toLower = false := by decide
  simpa using hall c.toNat hlt (by simpa using h)

theorem isTrimmed_lowerAscii_of_closing? {cs name rest : List Char}
    (h : closing? cs = some (name, rest)) : Chars.IsTrimmed (Chars.lowerAscii name) := by
  refine Chars.isTrimmed_of_forall fun c hc => ?_
  obtain ⟨d, hd, rfl⟩ := List.mem_map.1 hc
  exact isWhiteSpace_toLower (isPlaceholderChar_of_closing? h d hd)

theorem expandChars_ne_nil (pre : List Char) {cs : List Char} (h : cs ≠ []) :
    expandChars pre cs ≠ [] := by
  fun_cases expandChars pre cs with
  | case1 => exact absurd rfl h
  | case2 => exact List.cons_ne_nil _ _
  | case3 c d cs _ name rest hname =>
    have hlower : Chars.lowerAscii name ≠ [] := mt List.map_eq_nil_iff.1 (eq_of_closing? hname).2
    exact List.append_ne_nil_of_left_ne_nil (List.append_ne_nil_of_right_ne_nil _ hlower) _
  | case4 => exact List.cons_ne_nil _ _
  | case5 => exact List.cons_ne_nil _ _

/-- A text with placeholders begins with its own first character, or with that of a resolved
name. -/
theorem front_expandChars {pre cs : List Char}
    (hpre : ∀ c ∈ pre.head?, Chars.isWhiteSpace c = false)
    (hcs : ∀ c ∈ cs.head?, Chars.isWhiteSpace c = false) :
    ∀ c ∈ (expandChars pre cs).head?, Chars.isWhiteSpace c = false := by
  fun_cases expandChars pre cs with
  | case1 => exact hcs
  | case2 => exact hcs
  | case3 c d cs _ name rest hname =>
    have hlower := (isTrimmed_lowerAscii_of_closing? hname).front
    rw [List.append_assoc]
    refine Chars.front_append hpre fun _ => Chars.front_append hlower fun hnil => ?_
    exact absurd (List.map_eq_nil_iff.1 hnil) (eq_of_closing? hname).2
  | case4 => exact hcs
  | case5 => exact hcs

/-- It ends with its own last character, or with that of a resolved name. -/
theorem back_expandChars (pre : List Char) {cs : List Char}
    (hcs : ∀ c ∈ cs.getLast?, Chars.isWhiteSpace c = false) :
    ∀ c ∈ (expandChars pre cs).getLast?, Chars.isWhiteSpace c = false := by
  fun_induction expandChars pre cs with
  | case1 => exact hcs
  | case2 => exact hcs
  | case3 c d cs _ name rest hname _ ih =>
    rw [List.append_assoc]
    refine Chars.back_append (Chars.back_append (ih ?_) fun _ => ?_) fun hnil => ?_
    · rw [(eq_of_closing? hname).1] at hcs
      exact Chars.back_of_append (c :: d :: (name ++ ['_', '_'])) (by simpa using hcs)
    · exact (isTrimmed_lowerAscii_of_closing? hname).back
    · exact absurd (List.map_eq_nil_iff.1 (List.append_eq_nil_iff.1 hnil).1)
        (eq_of_closing? hname).2
  | case4 c d cs _ _ ih =>
    exact Chars.back_cons (ih (Chars.back_of_append [c] hcs))
      (expandChars_ne_nil pre (List.cons_ne_nil d cs))
  | case5 c d cs _ ih =>
    exact Chars.back_cons (ih (Chars.back_of_append [c] hcs))
      (expandChars_ne_nil pre (List.cons_ne_nil d cs))

/-- Resolving placeholders under a trimmed prefix keeps a text trimmed. -/
theorem trim_expand {pre s : String} (hpre : Text.trim pre = pre) (hs : Text.trim s = s) :
    Text.trim (expand pre s) = expand pre s := by
  rw [Text.trim_eq_self_iff] at hpre hs ⊢
  rw [expand, String.toList_ofList]
  exact ⟨front_expandChars hpre.front hs.front, back_expandChars _ hs.back⟩

end TableName

/-- An alias in the place of a table keeps a key trimmed. -/
theorem Scope.trim_qualify {s : Scope} {key : String}
    (haliases : ∀ a ∈ s.aliases.entries.map Prod.snd, Text.trim a = a)
    (hkey : Text.trim key = key) : Text.trim (s.qualify key) = s.qualify key := by
  rw [qualify]
  split
  · next table column hsplit =>
    split
    · exact hkey
    · cases ha : s.aliases.get? table with
      | none => exact hkey
      | some short =>
        have hshort := haliases short (NameMap.mem_values_of_get? ha)
        obtain ⟨⟨before, after⟩, hba, he⟩ := Option.map_eq_some_iff.1 hsplit
        obtain ⟨-, rfl⟩ := Prod.mk.inj he
        rw [Text.trim_eq_self_iff] at hkey hshort
        rw [Chars.eq_of_splitFirst? hba] at hkey
        have hback : ∀ c ∈ after.getLast?, Chars.isWhiteSpace c = false :=
          Chars.back_of_append (before ++ ['.']) (by simpa using hkey.back)
        show Text.trim (short ++ "." ++ String.ofList after) = short ++ "." ++ String.ofList after
        rw [Text.trim_eq_self_iff]
        have hlist : (short ++ "." ++ String.ofList after).toList =
            short.toList ++ '.' :: after := by simp
        rw [hlist]
        exact Chars.isTrimmed_append_cons (by decide) hshort.front hback
  · exact hkey

end SqlSelect
