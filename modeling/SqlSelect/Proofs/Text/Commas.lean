import SqlSelect.Proofs.Text.Words

/-!
# White space behind commas

Cutting a list at its commas and joining its items again loses the white space behind the commas.

* `Text.tight`: a text without that white space;
* `Chars.tightFrom_of_append_comma`, `Chars.eq_of_tightFrom_append`: what two texts have behind
  their last comma, or behind a common front, if they are alike up to white space behind commas;
* `Text.count_join`: how many commas a joined text has;
* `Text.items_append_comma`: the items of a list in two parts.
-/

namespace SqlSelect

namespace Chars

/-- The text without the white space behind its commas. `behind` says whether a comma stands in
front of the text. -/
def tightFrom (behind : Bool) : List Char → List Char
  | [] => []
  | c :: cs =>
    if behind && isWhiteSpace c then tightFrom true cs else c :: tightFrom (c == ',') cs

variable {behind : Bool} {c : Char} {cs ds gap xs ys v w : List Char}

/-- What is done with the rest of a text depends on where its front ends. -/
theorem exists_tightFrom_append (behind : Bool) (cs : List Char) :
    ∃ behind', ∀ ds, tightFrom behind (cs ++ ds) = tightFrom behind cs ++ tightFrom behind' ds := by
  induction cs generalizing behind with
  | nil => exact ⟨behind, fun _ => rfl⟩
  | cons c cs ih =>
    simp only [List.cons_append, tightFrom]
    split
    · exact ih true
    · obtain ⟨behind', h⟩ := ih (c == ',')
      exact ⟨behind', fun ds => by rw [h, List.cons_append]⟩

theorem tightFrom_append_comma (behind : Bool) (cs ds : List Char) :
    tightFrom behind (cs ++ ',' :: ds) = tightFrom behind cs ++ ',' :: tightFrom true ds := by
  have hcomma : isWhiteSpace ',' = false := by decide
  obtain ⟨behind', h⟩ := exists_tightFrom_append behind cs
  rw [h, tightFrom, hcomma, Bool.and_false, if_neg Bool.false_ne_true, beq_self_eq_true]

theorem tightFrom_blank_append (hgap : IsBlank gap) (cs : List Char) :
    tightFrom true (gap ++ cs) = tightFrom true cs := by
  induction gap with
  | nil => rfl
  | cons c gap ih =>
    obtain ⟨hc, hgap⟩ := List.forall_mem_cons.1 hgap
    rw [List.cons_append, tightFrom, hc, Bool.true_and, if_pos rfl, ih hgap]

/-- All that is taken out is white space. -/
theorem count_tightFrom (hc : isWhiteSpace c = false) (behind : Bool) (cs : List Char) :
    (tightFrom behind cs).count c = cs.count c := by
  induction cs generalizing behind with
  | nil => rfl
  | cons d cs ih =>
    rw [tightFrom]
    split
    · next hd =>
      have hne : d ≠ c := by
        rintro rfl
        rw [hc, Bool.and_false] at hd
        cases hd
      rw [ih, List.count_cons_of_ne hne]
    · rw [List.count_cons, List.count_cons, ih]

theorem mem_tightFrom (hc : isWhiteSpace c = false) (behind : Bool) (cs : List Char) :
    c ∈ tightFrom behind cs ↔ c ∈ cs := by
  rw [← List.count_pos_iff, count_tightFrom hc, List.count_pos_iff]

/-- Nothing is taken out of a text without commas, unless it begins with white space. -/
theorem tightFrom_of_front (hcomma : ',' ∉ cs) (hfront : ∀ c ∈ cs.head?, isWhiteSpace c = false) :
    tightFrom behind cs = cs := by
  have hrest : ∀ {ds : List Char}, ',' ∉ ds → tightFrom false ds = ds := by
    intro ds hds
    induction ds with
    | nil => rfl
    | cons d ds ih =>
      rw [List.mem_cons, not_or] at hds
      rw [tightFrom, Bool.false_and, if_neg Bool.false_ne_true, beq_false_of_ne (Ne.symm hds.1),
        ih hds.2]
  cases cs with
  | nil => rfl
  | cons c cs =>
    rw [List.mem_cons, not_or] at hcomma
    rw [tightFrom, hfront c rfl, Bool.and_false, if_neg Bool.false_ne_true,
      beq_false_of_ne (Ne.symm hcomma.1), hrest hcomma.2]

/-- Two texts are cut alike at the last occurrence of a character. -/
theorem append_cons_inj_right (hw : c ∉ w) (hv : c ∉ v) (h : xs ++ c :: w = ys ++ c :: v) :
    xs = ys ∧ w = v := by
  have hlast : ∀ {as u t : List Char}, c ∉ u → c :: u = as ++ c :: t → as = [] ∧ u = t := by
    intro as u t hu has
    cases as with
    | nil => exact ⟨rfl, (List.cons.inj has).2⟩
    | cons a as =>
      rw [(List.cons.inj has).2] at hu
      simp at hu
  rcases List.append_eq_append_iff.1 h with ⟨as, rfl, has⟩ | ⟨as, rfl, has⟩
  · obtain ⟨rfl, rfl⟩ := hlast hw has
    simp
  · obtain ⟨rfl, rfl⟩ := hlast hv has
    simp

/-- What stands behind the last comma, if the second front has no more commas than the first. -/
theorem tightFrom_of_append_comma (hcount : ys.count ',' ≤ xs.count ',') (hv : ',' ∉ v)
    (h : tightFrom behind (xs ++ ',' :: w) = tightFrom behind (ys ++ ',' :: v)) :
    ',' ∉ w ∧ tightFrom true w = tightFrom true v := by
  have hcomma : isWhiteSpace ',' = false := by decide
  have hw : ',' ∉ w := by
    have hcounts := congrArg (List.count ',') h
    have hvcount : v.count ',' = 0 := List.count_eq_zero.2 hv
    rw [count_tightFrom hcomma, count_tightFrom hcomma, List.count_append, List.count_append,
      List.count_cons_self, List.count_cons_self, hvcount] at hcounts
    exact List.count_eq_zero.1 (by omega)
  rw [tightFrom_append_comma, tightFrom_append_comma] at h
  exact ⟨hw, (append_cons_inj_right (mt (mem_tightFrom hcomma _ _).1 hw)
    (mt (mem_tightFrom hcomma _ _).1 hv) h).2⟩

/-- What stands behind a front, if it has no comma and begins with no white space. -/
theorem eq_of_tightFrom_append (hv : ',' ∉ v) (hvfront : ∀ c ∈ v.head?, isWhiteSpace c = false)
    (hwfront : ∀ c ∈ w.head?, isWhiteSpace c = false)
    (h : tightFrom behind (xs ++ w) = tightFrom behind (xs ++ v)) : w = v := by
  have hcomma : isWhiteSpace ',' = false := by decide
  obtain ⟨behind', hrest⟩ := exists_tightFrom_append behind xs
  rw [hrest, hrest, List.append_cancel_left_eq, tightFrom_of_front hv hvfront] at h
  have hw : ',' ∉ w := by rwa [← mem_tightFrom hcomma, h]
  rwa [tightFrom_of_front hw hwfront] at h

/-! ### Trimmed and joined texts -/

/-- Trimming takes nothing but white space away. -/
theorem mem_trim (hc : isWhiteSpace c = false) : c ∈ trim cs ↔ c ∈ cs := by
  obtain ⟨before, after, hbefore, hafter, hcs⟩ := exists_trim cs
  have hblank : ∀ {gap : List Char}, IsBlank gap → c ∉ gap := fun hgap hmem => by
    rw [hgap c hmem] at hc
    cases hc
  conv_rhs => rw [hcs, List.mem_append, List.mem_append]
  simp [hblank hbefore, hblank hafter]

/-- The parts of a joined text stand in it. -/
theorem infix_join (sep : List Char) {ws : List (List Char)} (hw : w ∈ ws) :
    w <:+: join sep ws := by
  match ws with
  | [u] => rw [List.mem_singleton.1 hw, join]
  | u :: v :: ws =>
    rw [join, List.append_assoc]
    rcases List.mem_cons.1 hw with rfl | hw
    · exact (List.prefix_append _ _).isInfix
    · exact (infix_join sep hw).trans
        ((List.suffix_append sep _).trans (List.suffix_append u _)).isInfix

end Chars

namespace Text

variable {s t : String}

theorem infix_toList_join (sep : String) {ts : List String} (ht : t ∈ ts) :
    t.toList <:+: (join sep ts).toList := by
  rw [toList_join]
  exact Chars.infix_join _ (List.mem_map_of_mem ht)

theorem join_append (sep : String) {ss ts : List String} (hs : ss ≠ []) (ht : ts ≠ []) :
    join sep (ss ++ ts) = join sep ss ++ sep ++ join sep ts := by
  obtain ⟨t, ts, rfl⟩ := List.exists_cons_of_ne_nil ht
  match ss with
  | [s] => rfl
  | s :: s' :: ss =>
    have ih := join_append sep (List.cons_ne_nil s' ss) (List.cons_ne_nil t ts)
    rw [List.cons_append] at ih
    rw [List.cons_append, List.cons_append, join_cons_cons, ih, join_cons_cons]
    simp only [String.append_assoc]

/-- The commas of a joined text: those in its parts, and one between each two of them. -/
theorem count_join {ts : List String} (hne : ts ≠ []) :
    (join "," ts).toList.count ',' + 1 = (ts.map fun t => t.toList.count ',' + 1).sum := by
  match ts with
  | [t] => simp
  | s :: t :: ts =>
    have ih := count_join (List.cons_ne_nil t ts)
    have hcomma : ",".toList.count ',' = 1 := by decide
    rw [join_cons_cons, String.toList_append, String.toList_append, List.count_append,
      List.count_append, hcomma, List.map_cons, List.sum_cons, ← ih]
    omega

theorem count_join_of_not_mem {ts : List String} (hne : ts ≠ []) (h : ∀ t ∈ ts, ',' ∉ t.toList) :
    (join "," ts).toList.count ',' + 1 = ts.length := by
  have hone : (ts.map fun t => t.toList.count ',' + 1) = ts.map fun _ => 1 :=
    List.map_congr_left fun t ht => by rw [List.count_eq_zero.2 (h t ht)]
  rw [count_join hne, hone]
  simp

theorem length_le_count_join {ts : List String} (hne : ts ≠ []) :
    ts.length ≤ (join "," ts).toList.count ',' + 1 := by
  rw [count_join hne]
  simp

theorem append_join_cons (sep s t : String) (ts : List String) :
    s ++ join sep (t :: ts) = join sep ((s ++ t) :: ts) := by
  cases ts with
  | nil => rfl
  | cons u ts => simp only [join_cons_cons, String.append_assoc]

theorem trim_ne_empty_of_mem {c : Char} (hc : Chars.isWhiteSpace c = false) (h : c ∈ s.toList) :
    trim s ≠ "" := by
  intro he
  rw [← Chars.mem_trim hc, ← toList_trim, he] at h
  cases h

/-- What goes on behind a trimmed text does not begin with white space. -/
theorem front_trim_append {c : Char} (h : c ∈ (trim s).toList) (t : String) :
    ∀ d ∈ (trim s ++ t).toList.head?, Chars.isWhiteSpace d = false := by
  rw [String.toList_append]
  refine Chars.front_append ?_ fun hnil => absurd (hnil ▸ h) List.not_mem_nil
  rw [toList_trim]
  exact (Chars.isTrimmed_trim _).front

/-! ### Lists in words -/

/-- The text without the white space behind its commas. -/
def tight (s : String) : String := String.ofList (Chars.tightFrom false s.toList)

theorem tight_inj : tight s = tight t ↔
    Chars.tightFrom false s.toList = Chars.tightFrom false t.toList := by
  rw [tight, tight, String.ofList_inj]

theorem items_of_not_mem (hcomma : ',' ∉ s.toList) (hne : trim s ≠ "") :
    items ',' s = [trim s] := by
  have hsingle := @items_join [s] (List.forall_mem_singleton.2 hcomma)
    (List.forall_mem_singleton.2 hne)
  rwa [join_singleton, List.map_singleton] at hsingle

/-- The items of a list in two parts. -/
theorem items_append_comma (s t : String) :
    items ',' (s ++ "," ++ t) = items ',' s ++ items ',' t := by
  have hchars : (s ++ "," ++ t).toList = s.toList ++ ',' :: t.toList := by simp
  have hsplit : splitOn ',' (s ++ "," ++ t) = splitOn ',' s ++ splitOn ',' t := by
    rw [splitOn, hchars, Chars.splitOn, Chars.splitWhere_append_sep (by simp), List.map_append]
    rfl
  rw [items, hsplit, List.map_append, List.filter_append]
  rfl

end Text

end SqlSelect
