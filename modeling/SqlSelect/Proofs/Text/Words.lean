import SqlSelect.Proofs.Qualifiers
import SqlSelect.Proofs.Text.Alphabet
import SqlSelect.Proofs.Text.Trimmed

/-!
# Words and items of a text

* `Chars.Spaced ws cs`: a text that is written with the words `ws`, white space between each two of
  them, and perhaps more of it around;
* `Chars.words_eq_iff`: these are the texts with the words `ws`;
* `Chars.exists_trim`: what trimming takes away. It does not change the words of a text
  (`Text.words_trim`) nor the items of a list (`Text.items_trim`);
* `Text.items_join`: the items of a list are what it was joined from;
* `Text.Lacks`, `Text.IsWordWithout`: texts and words without some characters.
-/

namespace SqlSelect

namespace Chars

/-- There is nothing but white space. -/
def IsBlank (cs : List Char) : Prop := ∀ c ∈ cs, isWhiteSpace c = true

/-- There are characters, and none of them is white space. -/
structure IsWord (w : List Char) : Prop where
  ne_nil : w ≠ []
  noSpace : ∀ c ∈ w, isWhiteSpace c = false

/-- The words with white space between each two and perhaps around them. What follows a word begins
with white space, unless it is the end. -/
inductive Spaced : List (List Char) → List Char → Prop
  | blank {gap : List Char} (hgap : IsBlank gap) : Spaced [] gap
  | word {gap w rest : List Char} {ws : List (List Char)} (hgap : IsBlank gap) (hw : IsWord w)
    (hend : ∀ c ∈ rest.head?, isWhiteSpace c = true) (hrest : Spaced ws rest) :
    Spaced (w :: ws) (gap ++ w ++ rest)

variable {p : Char → Bool} {c : Char} {cs ds gap w : List Char} {ws : List (List Char)}

/-! ### Words -/

/-- A separator cuts a text in two, each with pieces of its own. -/
theorem splitWhere_append_sep (hc : p c = true) (cs ds : List Char) :
    splitWhere p (cs ++ c :: ds) = splitWhere p cs ++ splitWhere p ds := by
  induction cs with
  | nil =>
    show splitWhere p (c :: ds) = [[]] ++ splitWhere p ds
    rw [splitWhere, if_pos hc]
    rfl
  | cons d cs ih =>
    rw [List.cons_append, splitWhere, splitWhere, ih]
    split
    · rfl
    · cases hs : splitWhere p cs with
      | nil => exact absurd hs (splitWhere_ne_nil p cs)
      | cons v vs => rfl

theorem words_append_cons (hc : isWhiteSpace c = true) (cs ds : List Char) :
    words (cs ++ c :: ds) = words cs ++ words ds := by
  rw [words, splitWhere_append_sep hc, List.filter_append]
  rfl

theorem words_of_isWord (hw : IsWord w) : words w = [w] := by
  have hne : w.isEmpty = false := by simpa using hw.ne_nil
  rw [words, splitWhere_of_forall hw.noSpace, List.filter_singleton, hne]
  rfl

theorem words_blank_append (hgap : IsBlank gap) (cs : List Char) :
    words (gap ++ cs) = words cs := by
  induction gap with
  | nil => rfl
  | cons c gap ih =>
    obtain ⟨hc, hgap⟩ := List.forall_mem_cons.1 hgap
    exact (words_append_cons hc [] (gap ++ cs)).trans (ih hgap)

theorem words_of_isBlank (hgap : IsBlank gap) : words gap = [] := by
  have happend := words_blank_append hgap []
  rwa [List.append_nil] at happend

theorem words_append_blank (hgap : IsBlank gap) (cs : List Char) :
    words (cs ++ gap) = words cs := by
  cases gap with
  | nil => rw [List.append_nil]
  | cons c gap =>
    obtain ⟨hc, hgap⟩ := List.forall_mem_cons.1 hgap
    rw [words_append_cons hc, words_of_isBlank hgap, List.append_nil]

theorem Spaced.words_eq (h : Spaced ws cs) : words cs = ws := by
  induction h with
  | blank hgap => exact words_of_isBlank hgap
  | @word gap w rest ws hgap hw hend hrest ih =>
    rw [List.append_assoc, words_blank_append hgap]
    cases rest with
    | nil =>
      have hnil : words [] = [] := rfl
      rw [List.append_nil, words_of_isWord hw, ← ih, hnil]
    | cons c rest =>
      have hc : isWhiteSpace c = true := hend c rfl
      have hrest : words (c :: rest) = words rest := words_append_cons hc [] rest
      rw [words_append_cons hc, words_of_isWord hw, ← ih, hrest]
      rfl

/-- Every text is written with some words. -/
theorem exists_spaced (cs : List Char) : ∃ ws, Spaced ws cs := by
  induction cs with
  | nil => exact ⟨[], .blank nofun⟩
  | cons c cs ih =>
    obtain ⟨ws, hws⟩ := ih
    cases hc : isWhiteSpace c with
    | true =>
      -- the character joins the gap at the front
      cases hws with
      | blank hgap => exact ⟨[], .blank (List.forall_mem_cons.2 ⟨hc, hgap⟩)⟩
      | word hgap hw hend hrest =>
        exact ⟨_, .word (List.forall_mem_cons.2 ⟨hc, hgap⟩) hw hend hrest⟩
    | false =>
      have hnone : IsBlank [] := nofun
      have hword : IsWord [c] := ⟨List.cons_ne_nil _ _, List.forall_mem_singleton.2 hc⟩
      cases hws with
      | blank hgap =>
        have hend : ∀ d ∈ cs.head?, isWhiteSpace d = true :=
          fun d hd => hgap d (List.mem_of_mem_head? hd)
        exact ⟨_, .word hnone hword hend (.blank hgap)⟩
      | @word gap w rest ws hgap hw hend hrest =>
        cases gap with
        | nil =>
          -- the character joins the first word
          have hw' : IsWord (c :: w) :=
            ⟨List.cons_ne_nil _ _, List.forall_mem_cons.2 ⟨hc, hw.noSpace⟩⟩
          exact ⟨_, .word hnone hw' hend hrest⟩
        | cons d gap =>
          have hd : isWhiteSpace d = true := hgap d List.mem_cons_self
          exact ⟨_, .word hnone hword (by simpa using hd) (.word hgap hw hend hrest)⟩

/-- The words of a text are those that it is written with. -/
theorem words_eq_iff : words cs = ws ↔ Spaced ws cs := by
  constructor
  · rintro rfl
    obtain ⟨ws, hws⟩ := exists_spaced cs
    rwa [hws.words_eq]
  · exact Spaced.words_eq

/-- A character of a text is white space or stands in one of its words. -/
theorem Spaced.of_mem (h : Spaced ws cs) (hspace : ∀ c, isWhiteSpace c = true → p c = true)
    (hws : ∀ w ∈ ws, ∀ c ∈ w, p c = true) : ∀ c ∈ cs, p c = true := by
  induction h with
  | blank hgap => exact fun c hc => hspace c (hgap c hc)
  | word hgap hw hend hrest ih =>
    rw [List.forall_mem_cons] at hws
    rw [List.forall_mem_append, List.forall_mem_append]
    exact ⟨⟨fun c hc => hspace c (hgap c hc), hws.1⟩, ih hws.2⟩

/-- Words that are joined by a space. -/
theorem spaced_join (h : ∀ w ∈ ws, IsWord w) : Spaced ws (join [' '] ws) := by
  induction ws with
  | nil => exact .blank nofun
  | cons w ws ih =>
    obtain ⟨hw, hrest⟩ := List.forall_mem_cons.1 h
    cases ws with
    | nil =>
      have hlast : Spaced [w] ([] ++ w ++ []) := .word nofun hw nofun (.blank nofun)
      rwa [List.append_nil] at hlast
    | cons v ws =>
      have hjoin : join [' '] (w :: v :: ws) = [] ++ w ++ ' ' :: join [' '] (v :: ws) := by
        simp [join]
      have hspace : isWhiteSpace ' ' = true := by decide
      rw [hjoin]
      refine .word nofun hw (by simpa using hspace) ?_
      -- the space goes to the gap in front of the next word
      generalize join [' '] (v :: ws) = more at ih
      cases ih hrest with
      | word hgap hv hend hmore => exact .word (List.forall_mem_cons.2 ⟨hspace, hgap⟩) hv hend hmore

/-! ### Trimming -/

theorem isBlank_takeWhile (cs : List Char) : IsBlank (cs.takeWhile isWhiteSpace) :=
  fun _ hc => List.mem_takeWhile_imp hc

/-- Trimming takes away white space at the two ends. -/
theorem exists_trim (cs : List Char) :
    ∃ before after, IsBlank before ∧ IsBlank after ∧ cs = before ++ trim cs ++ after := by
  let front := cs.dropWhile isWhiteSpace
  have hfront : front = trimEnd front ++ (front.reverse.takeWhile isWhiteSpace).reverse := by
    rw [trimEnd, ← List.reverse_append, List.takeWhile_append_dropWhile, List.reverse_reverse]
  refine ⟨cs.takeWhile isWhiteSpace, (front.reverse.takeWhile isWhiteSpace).reverse,
    isBlank_takeWhile cs, fun c hc => isBlank_takeWhile _ c (List.mem_reverse.1 hc), ?_⟩
  calc cs = cs.takeWhile isWhiteSpace ++ front := List.takeWhile_append_dropWhile.symm
    _ = cs.takeWhile isWhiteSpace ++ trim cs ++ (front.reverse.takeWhile isWhiteSpace).reverse := by
      rw [List.append_assoc]
      exact congrArg _ hfront

theorem trim_blank_append (hgap : IsBlank gap) (cs : List Char) : trim (gap ++ cs) = trim cs := by
  rw [trim, List.dropWhile_append_of_pos hgap, trim]

theorem trimEnd_append_blank (hgap : IsBlank gap) (cs : List Char) :
    trimEnd (cs ++ gap) = trimEnd cs := by
  rw [trimEnd, List.reverse_append,
    List.dropWhile_append_of_pos fun c hc => hgap c (List.mem_reverse.1 hc), trimEnd]

theorem trim_append_blank (hgap : IsBlank gap) (cs : List Char) : trim (cs ++ gap) = trim cs := by
  rw [trim, List.dropWhile_append]
  split
  · next hcs =>
    rw [trim, List.isEmpty_iff.1 hcs]
    exact trimEnd_append_blank (fun c hc => hgap c (List.dropWhile_subset _ hc)) []
  · rw [trimEnd_append_blank hgap, trim]

theorem words_trim (cs : List Char) : words (trim cs) = words cs := by
  obtain ⟨before, after, hbefore, hafter, hcs⟩ := exists_trim cs
  rw [hcs, words_append_blank hafter, words_blank_append hbefore, ← hcs]

theorem Spaced.isWord (h : Spaced [w] cs) : IsWord w := by
  cases h with
  | word _ hw _ _ => exact hw

/-- A text of one word is this word when it is trimmed. -/
theorem Spaced.trim_eq (h : Spaced [w] cs) : trim cs = w := by
  cases h with
  | word hgap hw hend hrest =>
    cases hrest with
    | blank hrest =>
      rw [trim_append_blank hrest, trim_blank_append hgap, trim_of_forall hw.noSpace]

/-! ### Items -/

/-- White space in front of a list is a part of its first piece. -/
theorem map_trim_splitWhere_blank_append (hgap : IsBlank gap) (hp : ∀ c ∈ gap, p c = false)
    (cs : List Char) : (splitWhere p (gap ++ cs)).map trim = (splitWhere p cs).map trim := by
  induction gap with
  | nil => rfl
  | cons c gap ih =>
    rw [IsBlank, List.forall_mem_cons] at hgap
    rw [List.forall_mem_cons] at hp
    rw [← ih hgap.2 hp.2, List.cons_append, splitWhere, if_neg (by simp [hp.1])]
    cases hs : splitWhere p (gap ++ cs) with
    | nil => exact absurd hs (splitWhere_ne_nil p _)
    | cons v vs =>
      have hv : trim (c :: v) = trim v :=
        trim_blank_append (List.forall_mem_singleton.2 hgap.1) v
      rw [List.modifyHead_cons, List.map_cons, List.map_cons, hv]

/-- What is put behind a text becomes a part of its last piece. -/
theorem exists_splitWhere_append (p : Char → Bool) (cs : List Char) :
    ∃ vs v, ∀ ds, (∀ c ∈ ds, p c = false) → splitWhere p (cs ++ ds) = vs ++ [v ++ ds] := by
  induction cs with
  | nil => exact ⟨[], [], fun ds hds => splitWhere_of_forall hds⟩
  | cons c cs ih =>
    obtain ⟨vs, v, h⟩ := ih
    cases hc : p c with
    | true =>
      refine ⟨[] :: vs, v, fun ds hds => ?_⟩
      rw [List.cons_append, splitWhere, if_pos hc, h ds hds]
      rfl
    | false =>
      have hstep : ∀ ds, (∀ d ∈ ds, p d = false) →
          splitWhere p (c :: cs ++ ds) = (vs ++ [v ++ ds]).modifyHead (c :: ·) := fun ds hds => by
        rw [List.cons_append, splitWhere, if_neg (by simp [hc]), h ds hds]
      cases vs with
      | nil => exact ⟨[], c :: v, hstep⟩
      | cons u us => exact ⟨(c :: u) :: us, v, hstep⟩

theorem map_trim_splitWhere_append_blank (hgap : IsBlank gap) (hp : ∀ c ∈ gap, p c = false)
    (cs : List Char) : (splitWhere p (cs ++ gap)).map trim = (splitWhere p cs).map trim := by
  obtain ⟨vs, v, h⟩ := exists_splitWhere_append p cs
  have hcs := h [] nofun
  rw [List.append_nil] at hcs
  rw [h gap hp, hcs, List.map_append, List.map_append, List.map_singleton, List.map_singleton,
    trim_append_blank hgap, List.append_nil]

end Chars

namespace Text

variable {cs : List Char} {s t : String} {ws : List String}

/-- The words with white space between each two and perhaps around them. -/
def Spaced (ws : List String) (s : String) : Prop := Chars.Spaced (ws.map String.toList) s.toList

/-- The text is not empty and has no white space in it. -/
structure IsWord (s : String) : Prop where
  ne_empty : s ≠ ""
  noSpace : hasWhiteSpace s = false

instance (s : String) : Decidable (IsWord s) :=
  decidable_of_iff (s ≠ "" ∧ hasWhiteSpace s = false)
    ⟨fun ⟨hne, hspace⟩ => ⟨hne, hspace⟩, fun h => ⟨h.ne_empty, h.noSpace⟩⟩

theorem isWord_iff : IsWord s ↔ Chars.IsWord s.toList := by
  have hspace : hasWhiteSpace s = false ↔ ∀ c ∈ s.toList, Chars.isWhiteSpace c = false := by
    simp [hasWhiteSpace]
  constructor
  · exact fun h => ⟨mt String.toList_eq_nil_iff.1 h.ne_empty, hspace.1 h.noSpace⟩
  · exact fun h => ⟨mt String.toList_eq_nil_iff.2 h.ne_nil, hspace.2 h.noSpace⟩

theorem IsWord.append (hs : IsWord s) (ht : hasWhiteSpace t = false) : IsWord (s ++ t) := by
  refine ⟨fun he => hs.ne_empty (String.append_eq_empty_iff.1 he).1, ?_⟩
  have hspace := hs.noSpace
  rw [hasWhiteSpace] at ht hspace ⊢
  rw [String.toList_append, List.any_append, hspace, ht]
  rfl

theorem words_eq_iff : words s = ws ↔ Spaced ws s := by
  rw [Spaced, ← Chars.words_eq_iff, words]
  constructor
  · rintro rfl
    simp
  · intro h
    rw [h]
    simp

theorem words_trim (s : String) : words (trim s) = words s := by
  rw [words, toList_trim, Chars.words_trim, words]

theorem Spaced.trim_eq (h : Spaced [t] s) : trim s = t := by
  rw [trim, Chars.Spaced.trim_eq h, String.ofList_toList]

/-- A text of one word has this word in it. -/
theorem Spaced.isWord (h : Spaced [t] s) : IsWord t := isWord_iff.2 (Chars.Spaced.isWord h)

/-- A text that is a word when it is trimmed is written with this word. -/
theorem spaced_trim (h : IsWord (trim s)) : Spaced [trim s] s := by
  rw [← words_eq_iff, ← words_trim, words, Chars.words_of_isWord (isWord_iff.1 h),
    List.map_singleton, String.ofList_toList]

/-- A text with words in it is not blank. -/
theorem Spaced.trim_ne_empty (h : Spaced (t :: ws) s) : trim s ≠ "" := by
  intro hblank
  have hwords := words_eq_iff.2 h
  rw [← words_trim, hblank] at hwords
  cases hwords

/-- A text is over an alphabet with white space if its words are. -/
theorem Spaced.isOver {p : Char → Bool} (h : Spaced ws s)
    (hspace : ∀ c, Chars.isWhiteSpace c = true → p c = true) (hws : ∀ w ∈ ws, IsOver p w) :
    IsOver p s :=
  Chars.Spaced.of_mem h hspace (List.forall_mem_map.2 hws)

theorem spaced_join (h : ∀ w ∈ ws, IsWord w) : Spaced ws (join " " ws) := by
  rw [Spaced, toList_join]
  exact Chars.spaced_join (List.forall_mem_map.2 fun w hw => isWord_iff.1 (h w hw))

theorem has_eq_true_iff {s : String} {c : Char} : has s c = true ↔ c ∈ s.toList := by
  simp [has]

theorem has_eq_false_iff {s : String} {c : Char} : has s c = false ↔ c ∉ s.toList := by
  simp [has]

/-- Joining texts without the sign and cutting at it again gives the texts back. -/
theorem splitOn_join {sign : Char} {ts : List String} (hne : ts ≠ [])
    (h : ∀ t ∈ ts, sign ∉ t.toList) : splitOn sign (join (String.singleton sign) ts) = ts := by
  have hlists : Chars.splitOn sign (Chars.join [sign] (ts.map String.toList)) =
      ts.map String.toList :=
    Chars.splitOn_join (by simpa using hne) (List.forall_mem_map.2 h)
  rw [splitOn, toList_join, String.toList_singleton, hlists, List.map_map]
  simp

/-- Trimming a list does not change its items. -/
theorem items_trim {sep : Char} (hsep : Chars.isWhiteSpace sep = false) (s : String) :
    items sep (trim s) = items sep s := by
  have hfree : ∀ gap, Chars.IsBlank gap → ∀ c ∈ gap, (c == sep) = false := fun gap hgap c hc => by
    rw [beq_eq_false_iff_ne]
    rintro rfl
    exact absurd (hgap c hc) (by rw [hsep]; exact Bool.false_ne_true)
  have hpieces : (Chars.splitOn sep (Chars.trim s.toList)).map Chars.trim =
      (Chars.splitOn sep s.toList).map Chars.trim := by
    obtain ⟨before, after, hbefore, hafter, hs⟩ := Chars.exists_trim s.toList
    conv_rhs => rw [hs]
    rw [Chars.splitOn, Chars.splitOn,
      Chars.map_trim_splitWhere_append_blank hafter (hfree after hafter),
      Chars.map_trim_splitWhere_blank_append hbefore (hfree before hbefore)]
  have hmap : ∀ t : String, (splitOn sep t).map trim =
      ((Chars.splitOn sep t.toList).map Chars.trim).map String.ofList := fun t => by
    simp [splitOn, trim]
  rw [items, hmap, toList_trim, hpieces, ← hmap, items]

/-- The items of a list are the texts that it was joined from, trimmed. -/
theorem items_join {ts : List String} (hcomma : ∀ t ∈ ts, ',' ∉ t.toList)
    (hne : ∀ t ∈ ts, trim t ≠ "") : items ',' (join "," ts) = ts.map trim := by
  cases ts with
  | nil => rfl
  | cons t ts =>
    have hsplit : splitOn ',' (join "," (t :: ts)) = t :: ts :=
      splitOn_join (List.cons_ne_nil t ts) hcomma
    rw [items, hsplit, List.filter_eq_self]
    exact List.forall_mem_map.2 fun t ht => by simpa using hne t ht

/-! ### Texts without some characters -/

/-- None of the characters is in the text. -/
def Lacks (cs : List Char) (s : String) : Prop := ∀ c ∈ cs, c ∉ s.toList

instance (cs : List Char) (s : String) : Decidable (Lacks cs s) :=
  List.decidableBAll (fun c => c ∉ s.toList) cs

/-- A word without some characters, which have a meaning where it stands. -/
structure IsWordWithout (cs : List Char) (s : String) : Prop extends IsWord s where
  lacks : Lacks cs s

theorem lacks_iff_isOver : Lacks cs s ↔ IsOver (fun c => !cs.contains c) s := by
  simp only [Lacks, IsOver, Bool.not_eq_true', List.contains_eq_mem, decide_eq_false_iff_not]
  exact ⟨fun h c hs hcs => h c hcs hs, fun h c hcs hs => h c hs hcs⟩

theorem Lacks.mono {ds : List Char} (h : Lacks cs s) (hds : ds ⊆ cs) : Lacks ds s :=
  fun c hc => h c (hds hc)

theorem Lacks.trim (h : Lacks cs s) : Lacks cs (trim s) :=
  lacks_iff_isOver.2 (lacks_iff_isOver.1 h).trim

/-- White space is nothing that a text could lack if its words do. -/
theorem Spaced.lacks (h : Spaced ws s) (hcs : cs.any Chars.isWhiteSpace = false)
    (hws : ∀ w ∈ ws, Lacks cs w) : Lacks cs s := by
  refine lacks_iff_isOver.2 (h.isOver (fun c hc => ?_) fun w hw => lacks_iff_isOver.1 (hws w hw))
  have hnot : c ∉ cs := fun hmem => List.any_eq_false.1 hcs c hmem hc
  simpa using hnot

theorem lacks_join (hs : Lacks cs s) {ts : List String} (hts : ∀ t ∈ ts, Lacks cs t) :
    Lacks cs (join s ts) :=
  lacks_iff_isOver.2 (isOver_join (lacks_iff_isOver.1 hs) fun t ht => lacks_iff_isOver.1 (hts t ht))

/-- A text that is `t` up to the case of ASCII letters lacks what is no letter of it. -/
theorem lacks_of_equalsIgnoringCase (h : equalsIgnoringCase s t = true)
    (hcs : cs.any (fun c => has (lowerAscii t) c.toLower) = false) : Lacks cs s := by
  have hst : lowerAscii s = lowerAscii t := eq_of_beq h
  intro c hc hs
  have hlower : c.toLower ∈ (lowerAscii t).toList := by
    rw [← hst, lowerAscii, String.toList_ofList]
    exact List.mem_map_of_mem hs
  exact List.any_eq_false.1 hcs c hc (has_eq_true_iff.2 hlower)

end Text

end SqlSelect
