import SqlSelect.ClauseText
import SqlSelect.Proofs.Document.Leaves
import SqlSelect.Proofs.Marks

/-!
# Names and flat clauses over an alphabet

* `Scope.IsOver p s`: the prefix and the aliases of a scope are over the alphabet `p`, and its way
  to quote stays in `p`. Then so are the keys that it writes (`Scope.isOver_key`);
* `Renderer.IsInert`: what the renderer adds is inert. Both dialects are of this kind
  (`Renderer.isInert_of_dialect`);
* `Document.isInert_clauseText`: the flat clauses are inert if their texts are.
-/

namespace SqlSelect

open Placeholder

namespace NameMap

theorem mem_values_of_get? {m : NameMap} {key value : String} (h : m.get? key = some value) :
    value ∈ m.entries.map Prod.snd := by
  obtain ⟨entries⟩ := m
  induction entries with
  | nil => simp [get?] at h
  | cons e es ih =>
    obtain ⟨k, v⟩ := e
    by_cases hk : key = k
    · simp [get?, List.lookup, hk] at h
      simp [h]
    · simp only [get?, List.lookup, beq_false_of_ne hk] at h
      exact List.mem_cons_of_mem _ (ih h)

end NameMap

namespace Dialect

variable {p : Char → Bool}

/-- Quoting adds backticks and nothing else. -/
theorem isOver_quoteParts (hquote : p '\x60' = true) (hdot : p '.' = true) {key : String}
    (h : Text.IsOver p key) : Text.IsOver p (quoteParts key) := by
  simp only [quoteParts]
  split
  · exact h.trim
  · refine Text.isOver_join_map (by simpa [Text.IsOver] using hdot) fun part hpart => ?_
    have hover := h.trim.of_mem_splitOn hpart
    rw [quotePart]
    split
    · exact hover
    · have hq : Text.IsOver p "\x60" := by simpa [Text.IsOver] using hquote
      exact Text.isOver_append.2 ⟨Text.isOver_append.2 ⟨hq, hover⟩, hq⟩

/-- Neither dialect adds anything but backticks. -/
theorem isOver_quote {d : Dialect} (hd : d = .generic ∨ d = .mysql) (hquote : p '\x60' = true)
    (hdot : p '.' = true) {key : String} (h : Text.IsOver p key) : Text.IsOver p (d.quote key) := by
  rcases hd with rfl | rfl
  · rw [quote_generic]
    exact h
  · rw [quote_mysql]
    exact isOver_quoteParts hquote hdot h

end Dialect

namespace Scope

/-- All that a scope knows of is over an alphabet, and so is what it quotes. -/
structure IsOver (p : Char → Bool) (s : Scope) : Prop where
  toLower : ∀ c, p c = true → p c.toLower = true
  dot : p '.' = true
  tablePrefix : Text.IsOver p s.renderer.tablePrefix
  aliases : ∀ a ∈ s.aliases.entries.map Prod.snd, Text.IsOver p a
  quote : ∀ t, Text.IsOver p t → Text.IsOver p (s.renderer.dialect.quote t)

variable {p : Char → Bool} {s : Scope}

theorem isOver_qualify (hs : s.IsOver p) {key : String} (h : Text.IsOver p key) :
    Text.IsOver p (s.qualify key) := by
  rw [qualify]
  split
  · next table column hsplit =>
    split
    · exact h
    · cases ha : s.aliases.get? table with
      | none => exact h
      | some short =>
        have halias := hs.aliases short (NameMap.mem_values_of_get? ha)
        have hcolumn := (h.of_splitFirst? hsplit).2
        have hdot : Text.IsOver p "." := by simpa [Text.IsOver] using hs.dot
        simpa using ⟨⟨halias, hdot⟩, hcolumn⟩
  · exact h

/-- A field as it is written stays within the alphabet. -/
theorem isOver_key (hs : s.IsOver p) {field : String} (h : Text.IsOver p field) :
    Text.IsOver p (s.key field) :=
  hs.quote _ (isOver_qualify hs (TableName.isOver_expand hs.toLower hs.tablePrefix h))

/-- Without a placeholder or an alias, a field is only quoted. -/
theorem key_eq_quote (ha : s.aliases = {}) {field : String}
    (h : ¬ ['_', '_'] <:+: field.toList) : s.key field = s.quote field := by
  have hexpand : s.expand field = field := TableName.expand_of_not_infix _ h
  rw [key, hexpand, qualify, ha]
  split
  · split <;> rfl
  · rfl

theorem isOver_table (hs : s.IsOver p) (hspace : p ' ' = true) {name : String}
    (h : Text.IsOver p name) : Text.IsOver p (s.table name) := by
  have hname := TableName.isOver_expand hs.toLower hs.tablePrefix h
  simp only [table]
  split
  · exact hname
  · refine Text.isOver_append.2 ⟨hs.quote _ hname, ?_⟩
    cases ha : s.aliases.get? (s.expand name) with
    | none => exact Text.isOver_empty
    | some short =>
      have hsep : Text.IsOver p " " := by simpa [Text.IsOver] using hspace
      exact Text.isOver_append.2
        ⟨hsep, hs.quote _ (hs.aliases short (NameMap.mem_values_of_get? ha))⟩

end Scope

/-! ### Inert clauses -/

/-- What a renderer adds to the texts of a document is inert. -/
structure Renderer.IsInert (r : Renderer) : Prop where
  tablePrefix : Text.IsOver isInert r.tablePrefix
  quote : ∀ t, Text.IsOver isInert t → Text.IsOver isInert (r.dialect.quote t)
  limit : ∀ l, Text.IsOver isInert (r.dialect.limit l)

theorem isInert_toString (n : UInt64) : Text.IsOver isInert (toString n) := by
  intro c hc
  have hn : toString n = n.toNat.repr := rfl
  rw [hn, Nat.toList_repr] at hc
  have hdigit := Nat.isDigit_of_mem_toDigits (by decide) (by decide) hc
  refine isInert_iff.2 ⟨?_, ?_, ?_⟩ <;>
    · rintro rfl
      exact absurd hdigit (by decide)

theorem Limit.isInert_text (l : Limit) : Text.IsOver isInert l.text := by
  rw [Limit.text]
  split
  · simp only [Text.isOver_append]
    exact ⟨⟨⟨by decide, isInert_toString _⟩, by decide⟩, isInert_toString _⟩
  · exact Text.isOver_append.2 ⟨by decide, isInert_toString _⟩

/-- Neither dialect writes a mark or a quote of its own. -/
theorem Renderer.isInert_of_dialect {r : Renderer}
    (hr : r.dialect = .generic ∨ r.dialect = .mysql) (h : Text.IsOver isInert r.tablePrefix) :
    r.IsInert := by
  refine ⟨h, fun t ht => Dialect.isOver_quote hr (by decide) (by decide) ht, fun l => ?_⟩
  rcases hr with hr | hr <;> rw [hr] <;> exact l.isInert_text

/-- A scope of an inert renderer with inert aliases is inert. -/
theorem Renderer.IsInert.scope {r : Renderer} (hr : r.IsInert) {aliases : NameMap}
    (h : ∀ a ∈ aliases.entries.map Prod.snd, Text.IsOver isInert a) :
    Scope.IsOver isInert ⟨r, aliases⟩ :=
  ⟨fun _ => isInert_toLower, by decide, hr.tablePrefix, h, hr.quote⟩

namespace Scope

variable {s : Scope}

theorem isInert_fieldItem (hs : s.IsOver isInert) {item : FieldItem}
    (h : ∀ t ∈ item.texts, Text.IsOver isInert t) : Text.IsOver isInert (s.fieldItem item) := by
  cases item with
  | column name => exact isOver_key hs (h name (by simp [FieldItem.texts]))
  | aliased name short =>
    simp only [fieldItem, Text.isOver_append]
    exact ⟨⟨isOver_key hs (h name (by simp [FieldItem.texts])), by decide⟩,
      hs.quote _ (h short (by simp [FieldItem.texts]))⟩
  | raw sql => exact h sql (by simp [FieldItem.texts])

theorem isInert_fields (hs : s.IsOver isInert) {fs : FieldList}
    (h : ∀ t ∈ fs.texts, Text.IsOver isInert t) : Text.IsOver isInert (s.fields fs) := by
  cases fs with
  | all => exact (by decide : Text.IsOver isInert "*")
  | items items =>
    exact Text.isOver_join_map (by decide) fun item hitem =>
      isInert_fieldItem hs fun t ht => h t (List.mem_flatMap.2 ⟨item, hitem, ht⟩)

theorem isInert_joinOn (hs : s.IsOver isInert) {on : JoinOn}
    (h : ∀ t ∈ on.texts, Text.IsOver isInert t) : Text.IsOver isInert (s.joinOn on) := by
  cases on with
  | eq left right =>
    simp only [joinOn, Text.isOver_append]
    exact ⟨⟨isOver_key hs (h left (by simp [JoinOn.texts])), by decide⟩,
      isOver_key hs (h right (by simp [JoinOn.texts]))⟩
  | text t => exact h t (by simp [JoinOn.texts])
  | raw sql => exact h sql (by simp [JoinOn.texts])

theorem isInert_join (hs : s.IsOver isInert) {j : Join}
    (h : ∀ t ∈ j.texts, Text.IsOver isInert t) : Text.IsOver isInert (s.join j) := by
  have hkind : Text.IsOver isInert j.kind.keyword := by cases j.kind <;> decide
  have htable := isOver_table hs (by decide) (h j.table (by simp [Join.texts]))
  have hon : Text.IsOver isInert (Text.join " AND " (j.on.map s.joinOn)) :=
    Text.isOver_join_map (by decide) fun on hmem => isInert_joinOn hs fun t ht =>
      h t (List.mem_cons_of_mem _ (List.mem_flatMap.2 ⟨on, hmem, ht⟩))
  simp only [join, Text.isOver_append]
  refine ⟨⟨⟨⟨by decide, hkind⟩, by decide⟩, htable⟩, ?_⟩
  split
  · exact Text.isOver_empty
  · exact Text.isOver_append.2 ⟨by decide, hon⟩

theorem isInert_groupKeys (hs : s.IsOver isInert) {group : String}
    (h : Text.IsOver isInert group) : Text.IsOver isInert (s.groupKeys group) := by
  rw [groupKeys]
  split
  · exact h.trim
  · exact Text.isOver_join_map (by decide) fun key hkey =>
      isOver_key hs (h.of_mem_splitOn hkey).trim

theorem isInert_orderItem (hs : s.IsOver isInert) {item : OrderItem}
    (h : ∀ t ∈ item.texts, Text.IsOver isInert t) : Text.IsOver isInert (s.orderItem item) := by
  match item with
  | .field name none => exact isOver_key hs (h name (by simp [OrderItem.texts]))
  | .field name (some direction) =>
    have hdir : Text.IsOver isInert direction.keyword := by cases direction <;> decide
    simp only [orderItem, Text.isOver_append]
    exact ⟨⟨isOver_key hs (h name (by simp [OrderItem.texts])), by decide⟩, hdir⟩
  | .raw sql => exact h sql (by simp [OrderItem.texts])

end Scope

/-- What is left of a comment is inert if the comment is. -/
theorem isInert_commentBody {text : String} (h : Text.IsOver isInert text) :
    Text.IsOver isInert (commentBody text) := by
  refine Text.IsOver.trim (Text.isOver_ofList.2 fun c hc => ?_)
  exact h c (Chars.mem_of_mem_removePair hc)

namespace Document

variable {d : Document} {r : Renderer}

theorem isInert_scope (hr : r.IsInert) (h : ∀ t ∈ d.clauseTexts, Text.IsOver isInert t) :
    (d.scope r).IsOver isInert :=
  hr.scope fun a ha => h a (by simp [clauseTexts, ha])

/-- The flat clauses of inert texts are inert. -/
theorem isInert_clauseText (hr : r.IsInert) (h : ∀ t ∈ d.clauseTexts, Text.IsOver isInert t)
    (slot : Slot) : Text.IsOver isInert (d.clauseText r slot) := by
  have hs := isInert_scope hr h
  simp only [clauseTexts, List.mem_append, or_imp, forall_and] at h
  obtain ⟨⟨⟨⟨⟨⟨⟨⟨⟨htables, -⟩, hfields⟩, hjoins⟩, hgroup⟩, hhaving⟩, horder⟩, hlock⟩, hcomment⟩,
    hforced⟩ := h
  cases slot with
  | distinct =>
    simp only [clauseText]
    split <;> decide
  | fields => exact Scope.isInert_fields hs hfields
  | tables =>
    exact Text.isOver_join_map (by decide) fun table htable =>
      Scope.isOver_table hs (by decide) (htables table htable)
  | forced =>
    simp only [clauseText]
    split
    · exact Text.isOver_empty
    · simp only [Text.isOver_append]
      exact ⟨⟨by decide, Text.isOver_join (by decide) hforced⟩, by decide⟩
  | joins =>
    exact Text.isOver_join_map Text.isOver_empty fun j hj =>
      Scope.isInert_join hs fun t ht => hjoins t (List.mem_flatMap.2 ⟨j, hj, ht⟩)
  | filter => exact Text.isOver_empty
  | group =>
    simp only [clauseText]
    split
    · next group hg =>
      have hkeys := Scope.isInert_groupKeys hs (hgroup group (by simp [hg]))
      split
      · exact Text.isOver_empty
      · exact Text.isOver_append.2 ⟨by decide, hkeys⟩
    · exact Text.isOver_empty
  | having =>
    simp only [clauseText]
    cases hh : d.having with
    | none => exact Text.isOver_empty
    | some sql => exact Text.isOver_append.2 ⟨by decide, hhaving sql (by simp [hh])⟩
  | unions => exact Text.isOver_empty
  | order =>
    simp only [clauseText]
    split
    · exact Text.isOver_empty
    · refine Text.isOver_append.2 ⟨by decide, Text.isOver_join_map (by decide) fun item hitem => ?_⟩
      exact Scope.isInert_orderItem hs fun t ht => horder t (List.mem_flatMap.2 ⟨item, hitem, ht⟩)
  | limit =>
    simp only [clauseText]
    cases d.limit with
    | none => exact Text.isOver_empty
    | some l => exact Text.isOver_append.2 ⟨by decide, hr.limit l⟩
  | lock =>
    simp only [clauseText]
    split
    · next lock hl =>
      split
      · exact Text.isOver_empty
      · exact Text.isOver_append.2 ⟨by decide, hlock lock (by simp [hl])⟩
    · exact Text.isOver_empty
  | comment =>
    simp only [clauseText]
    split
    · next comment hc =>
      have hbody := isInert_commentBody (hcomment comment (by simp [hc]))
      split
      · exact Text.isOver_empty
      · simp only [Text.isOver_append]
        exact ⟨⟨by decide, hbody⟩, by decide⟩
    · exact Text.isOver_empty

/-- A clause that stands behind the conditions is absent or begins with a space. -/
theorem isCalm_clauseText (d : Document) (r : Renderer) {slot : Slot}
    (h : slot ∈ [Slot.group, .having, .order, .limit, .lock, .comment]) :
    isCalm (d.clauseText r slot) = true := by
  -- whatever the clause goes on with, its keyword keeps it apart from what stands before
  have spaced : ∀ s t : String, isCalm s = true → s ≠ "" → isCalm (s ++ t) = true :=
    fun s t hs hne => isCalm_append_of_ne_empty hs hne t
  simp only [List.mem_cons, List.not_mem_nil, or_false] at h
  rcases h with rfl | rfl | rfl | rfl | rfl | rfl
  · simp only [clauseText]
    split
    · split
      · rfl
      · exact spaced _ _ (by decide) (by decide)
    · rfl
  · simp only [clauseText]
    cases d.having with
    | none => rfl
    | some sql => exact spaced _ _ (by decide) (by decide)
  · simp only [clauseText]
    split
    · rfl
    · exact spaced _ _ (by decide) (by decide)
  · simp only [clauseText]
    cases d.limit with
    | none => rfl
    | some l => exact spaced _ _ (by decide) (by decide)
  · simp only [clauseText]
    split
    · split
      · rfl
      · exact spaced _ _ (by decide) (by decide)
    · rfl
  · simp only [clauseText]
    split
    · split
      · rfl
      · rw [String.append_assoc]
        exact spaced _ _ (by decide) (by decide)
    · rfl

end Document

end SqlSelect
