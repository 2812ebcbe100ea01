import SqlSelect.Proofs.Binding
import SqlSelect.Proofs.Closing
import SqlSelect.Proofs.Ledger

/-!
# What declaration checks of raw SQL

Raw SQL is checked where it is declared: its positional marks and its binds must be as many. The raw
operand of a comparison is the one exception; it takes no binds, and no one looks for marks in it.

* `Leaf.IsChecked`: what is known of a leaf that was accepted;
* `Fragment.Writes.count_eq_add`: how far the marks of checked leaves and their binds can differ;
* `Criterion.IsWhere`, `Criterion.leaves_read`: what a criterion comes to has been checked;
* `Accepted.AreChecked`: declarations of which all leaves are checked, and so are those of the
  clause that they make (`Accepted.AreChecked.leaves_ofAccepted`).
-/

namespace SqlSelect

open Placeholder

/-! ### Leaves that were checked -/

namespace Leaf

/-- A text is inert, and raw SQL has as many positional marks as values for them. -/
def IsChecked : Leaf → Prop
  | text s => Text.IsOver isInert s
  | raw sql binds => count sql = Params.positionalCount binds
  | _ => True

/-- The positional marks of a raw operand, to which nothing is ever bound. -/
def unboundMarks : Leaf → Nat
  | operand sql => count sql
  | _ => 0

theorem IsChecked.marks_eq {l : Leaf} (h : l.IsChecked) :
    l.marks = Params.positionalCount l.params + l.unboundMarks := by
  cases l with
  | text s => rfl
  | value v => rfl
  | operand sql => simp [marks, params, unboundMarks, Params.positionalCount]
  | raw sql binds => exact h

theorem sum_marks_eq {ls : List Leaf} (h : ∀ l ∈ ls, l.IsChecked) :
    (ls.map marks).sum =
      (ls.map fun l => Params.positionalCount l.params).sum + (ls.map unboundMarks).sum := by
  induction ls with
  | nil => rfl
  | cons l ls ih =>
    obtain ⟨hl, hls⟩ := List.forall_mem_cons.1 h
    simp only [List.map_cons, List.sum_cons, ih hls, hl.marks_eq]
    omega

theorem sum_unboundMarks_eq_zero {ls : List Leaf} :
    (ls.map unboundMarks).sum = 0 ↔ ∀ sql, .operand sql ∈ ls → count sql = 0 := by
  rw [List.sum_eq_zero_iff_forall_eq_nat]
  simp only [List.mem_map, forall_exists_index, and_imp]
  constructor
  · exact fun h sql hm => h _ _ hm rfl
  · rintro h _ l hm rfl
    cases l with
    | operand sql => exact h sql hm
    | _ => rfl

theorem sum_unboundMarks_bound (ls : List Leaf) :
    ((bound ls).map unboundMarks).sum = (ls.map unboundMarks).sum := by
  induction ls with
  | nil => rfl
  | cons l ls ih => cases l <;> simp_all [bound, isText, unboundMarks]

end Leaf

/-- The marks of a fragment are the values of its checked leaves and the marks of its raw
operands. -/
theorem Fragment.Writes.count_eq_add {ls : List Leaf} {f : Fragment} (h : Writes ls f)
    (hc : ∀ l ∈ ls, l.IsClosed) (hl : ∀ l ∈ ls, l.IsChecked) :
    count f.sql = Params.positionalCount f.params + (ls.map Leaf.unboundMarks).sum := by
  rw [h.count_eq hc, h.params_eq, Leaf.positionalCount_flatMap, Leaf.sum_marks_eq hl]

/-! ### What a criterion comes to -/

/-- The leaves of a demand. -/
def Demand.leaves : Demand → List Leaf
  | .onField field c => .text field :: c.leaves
  | .raw sql binds => [.raw sql binds]

namespace Condition

/-- Has the condition neither raw SQL nor a subquery in it? -/
def IsBare : Condition → Prop
  | compareRaw _ _ => False
  | exp _ _ => False
  | inQuery _ _ => False
  | _ => True

/-- Has the condition no subquery in it? -/
def IsFlat : Condition → Prop
  | inQuery _ _ => False
  | _ => True

variable {c : Condition}

theorem IsBare.isFlat (h : c.IsBare) : c.IsFlat := by
  cases c with
  | inQuery query negated => exact h
  | _ => trivial

/-- The leaves of a condition without a subquery are checked if its raw SQL is. -/
theorem IsFlat.leaves_checked (h : c.IsFlat)
    (hexp : ∀ sql binds, c = .exp sql binds → count sql = Params.positionalCount binds) :
    ∀ l ∈ c.leaves, l.IsChecked := by
  intro l hl
  cases c with
  | compare op v =>
    rcases op.isNullTest_or v with ⟨rfl, rfl⟩ | ⟨rfl, rfl⟩ | ⟨hleaves, -⟩
    · exact absurd hl List.not_mem_nil
    · exact absurd hl List.not_mem_nil
    · rw [Condition.leaves, hleaves, List.mem_singleton] at hl
      subst hl
      trivial
  | compareRaw op sql =>
    rw [Condition.leaves, List.mem_singleton] at hl
    subst hl
    trivial
  | isNull => exact absurd hl List.not_mem_nil
  | isNotNull => exact absurd hl List.not_mem_nil
  | inList vs negated =>
    obtain ⟨v, -, rfl⟩ := List.mem_map.1 hl
    trivial
  | between low high negated =>
    have hcases : l = .value low ∨ l = .value high := by simpa [Condition.leaves] using hl
    rcases hcases with rfl | rfl <;> trivial
  | exp sql binds =>
    rw [Condition.leaves, List.mem_singleton] at hl
    subst hl
    exact hexp sql binds rfl
  | inQuery query negated => exact absurd h id

theorem IsBare.leaves_checked (h : c.IsBare) : ∀ l ∈ c.leaves, l.IsChecked := by
  refine h.isFlat.leaves_checked ?_
  rintro sql binds rfl
  exact absurd h id

theorem isFlat_ofBounds {vs : List Value} {negated : Bool} (h : ofBounds vs negated = .ok c) :
    c.IsFlat := by
  unfold ofBounds at h
  split at h
  · cases h
    trivial
  · cases h

/-- An operator with its operand makes no subquery. -/
theorem isFlat_ofOperand {op : Operator} {operand : Operand} (h : ofOperand op operand = .ok c) :
    c.IsFlat := by
  unfold ofOperand at h
  split at h
  all_goals first
    | exact isFlat_ofBounds h
    | cases h <;> trivial

end Condition

namespace Criterion

/-- The criteria whose field is inert or an expression. A condition that is given as it is has no
raw SQL in it. -/
def IsWhere : Criterion → Prop
  | stated field _ _ _ => Text.IsOver isInert field ∨ Name.isExpression (Text.trim field) = true
  | onField field c => Text.IsOver isInert field ∧ c.IsBare
  | raw _ _ => True

variable {c : Criterion} {field : String}

/-- Raw SQL is accepted only if its binds match its marks. -/
theorem checkBinds_eq_ok {sql : String} {binds : List Param} {u : Unit}
    (h : checkBinds sql binds = .ok u) : count sql = Params.positionalCount binds :=
  checkBinds_eq_ok_iff.1 h

theorem leaves_ofRaw {sql : String} {binds : List Param} {x : Demand}
    (h : Demand.ofRaw sql binds = .ok x) : ∀ l ∈ x.leaves, l.IsChecked := by
  unfold Demand.ofRaw at h
  cases hcheck : checkBinds sql binds with
  | error f =>
    rw [hcheck] at h
    cases h
  | ok u =>
    rw [hcheck] at h
    cases h
    exact List.forall_mem_cons.2 ⟨checkBinds_eq_ok hcheck, fun l hl => absurd hl List.not_mem_nil⟩

theorem isFlat_withOperator {op : String} {operand : Option Operand} {c : Condition}
    (h : withOperator field op operand = .ok c) : c.IsFlat := by
  unfold withOperator at h
  split at h
  · cases h
  · cases h
    trivial
  · cases h
    trivial
  · next operator _ _ _ =>
    cases operand with
    | none => cases h
    | some operand =>
      cases hc : Condition.ofOperand operator operand with
      | error f =>
        simp only [hc] at h
        cases h
      | ok c' =>
        simp only [hc] at h
        cases h
        exact Condition.isFlat_ofOperand hc

theorem isFlat_condition {op : Option String} {operand : Option Operand} {c : Condition}
    (h : condition field op operand = .ok c) : c.IsFlat := by
  unfold condition at h
  split at h
  · exact isFlat_withOperator h
  · cases h
    unfold withoutOperator
    split <;> trivial

/-- Behind the field of its own, a condition that takes its binds is checked. -/
theorem leaves_bindExtra {extra : List Param} {c : Condition} {x : Demand} (hc : c.IsFlat)
    (hf : Text.IsOver isInert field) (h : bindExtra field extra c = .ok x) :
    ∀ l ∈ x.leaves, l.IsChecked := by
  have hfield : ∀ c : Condition, c.IsFlat →
      (∀ sql binds, c = .exp sql binds → count sql = Params.positionalCount binds) →
      ∀ l ∈ (Demand.onField field c).leaves, l.IsChecked := fun c hc hexp =>
    List.forall_mem_cons.2 ⟨hf, hc.leaves_checked hexp⟩
  unfold bindExtra at h
  split at h
  · next sql _ =>
    cases hcheck : checkBinds sql extra with
    | error f =>
      rw [hcheck] at h
      cases h
    | ok u =>
      rw [hcheck] at h
      cases h
      refine hfield _ trivial fun sql' binds' e => ?_
      cases e
      exact checkBinds_eq_ok hcheck
  · next hne =>
    cases h
    exact hfield _ hc fun sql binds e => absurd e (hne sql binds)

/-- What a criterion comes to has been checked. -/
theorem leaves_read {x : Demand} (hc : c.IsWhere) (h : c.read = .ok x) :
    ∀ l ∈ x.leaves, l.IsChecked := by
  cases c with
  | stated field op operand extra =>
    simp only [read, readStated] at h
    split at h
    · cases h
    · split at h
      · obtain ⟨binds, -, hraw⟩ := exists_of_bind_eq_ok h
        exact leaves_ofRaw hraw
      · next hexp =>
        -- the field is no expression, so that it is inert
        have hf : Text.IsOver isInert (Text.trim field) := (hc.resolve_right hexp).trim
        obtain ⟨cond, hcond, hextra⟩ := exists_of_bind_eq_ok h
        exact leaves_bindExtra (isFlat_condition hcond) hf hextra
  | onField field cond =>
    cases h
    exact List.forall_mem_cons.2 ⟨hc.1.trim, hc.2.leaves_checked⟩
  | raw sql binds => exact leaves_ofRaw h

end Criterion

/-! ### What is accepted -/

namespace Accepted

/-- The leaves of a declaration. -/
def leaves : Accepted → List Leaf
  | onField _ field c => .text field :: c.leaves
  | whole _ e _ => e.leaves

variable {k : Connective} {f : String} {h : List Accepted}

theorem mem_conditions {c : Condition} : c ∈ conditions k f h ↔ .onField k f c ∈ h := by
  rw [conditions, List.mem_filterMap]
  constructor
  · rintro ⟨a, ha, hc⟩
    cases a with
    | onField j g d =>
      rw [condition?] at hc
      split at hc
      · next hjg =>
        obtain ⟨rfl, rfl⟩ := hjg
        cases hc
        exact ha
      · cases hc
    | whole j e he => cases hc
  · exact fun hm => ⟨_, hm, by simp [condition?]⟩

/-- Each entry comes from a declaration. -/
theorem exists_of_mem_entriesFrom {C : String → List Condition} {seen : List String} {e : Entry}
    (he : e ∈ entriesFrom k C seen h) :
    (∃ f c, .onField k f c ∈ h ∧ e = .field f (C f)) ∨ ∃ hw, .whole k e hw ∈ h := by
  induction h generalizing seen with
  | nil => exact absurd he List.not_mem_nil
  | cons a h ih =>
    have hrest : ∀ {seen}, e ∈ entriesFrom k C seen h →
        (∃ f c, .onField k f c ∈ a :: h ∧ e = .field f (C f)) ∨ ∃ hw, .whole k e hw ∈ a :: h := by
      intro seen he
      rcases ih he with ⟨f, c, hm, rfl⟩ | ⟨hw, hm⟩
      · exact .inl ⟨f, c, List.mem_cons_of_mem _ hm, rfl⟩
      · exact .inr ⟨hw, List.mem_cons_of_mem _ hm⟩
    cases a with
    | onField j f c =>
      rw [entriesFrom] at he
      split at he
      · next hj =>
        rcases List.mem_cons.1 he with rfl | he
        · exact .inl ⟨f, c, hj.1 ▸ List.mem_cons_self, rfl⟩
        · exact hrest he
      · exact hrest he
    | whole j e' hw =>
      rw [entriesFrom] at he
      split at he
      · next hj =>
        subst hj
        rcases List.mem_cons.1 he with rfl | he
        · exact .inr ⟨hw, List.mem_cons_self⟩
        · exact hrest he
      · exact hrest he

/-- The leaves of a clause come from the declarations. -/
theorem exists_of_mem_leaves {l : Leaf} (hl : l ∈ Branch.leavesEach (Filter.ofAccepted h)) :
    ∃ a ∈ h, l ∈ a.leaves := by
  rw [Branch.leavesEach_eq_flatMap] at hl
  obtain ⟨b, hb, hl⟩ := List.mem_flatMap.1 hl
  obtain ⟨k, -, rfl⟩ := List.mem_map.1 hb
  rw [Branch.leaves, Entry.leavesEach_eq_flatMap] at hl
  obtain ⟨e, he, hl⟩ := List.mem_flatMap.1 hl
  rcases exists_of_mem_entriesFrom he with ⟨f, c, hm, rfl⟩ | ⟨hw, hm⟩
  · -- the entry of a field holds conditions of several declarations
    rw [Entry.leaves, ← List.flatMap_def] at hl
    rcases List.mem_cons.1 hl with rfl | hl
    · exact ⟨_, hm, List.mem_cons_self⟩
    · obtain ⟨n, -, hl⟩ := List.mem_flatMap.1 hl
      rw [Condition.leavesEach_eq_flatMap] at hl
      obtain ⟨c', hc', hl⟩ := List.mem_flatMap.1 hl
      exact ⟨_, mem_conditions.1 hc', List.mem_cons_of_mem _ hl⟩
  · exact ⟨_, hm, hl⟩

/-- Are all leaves of the declarations checked? -/
def AreChecked (h : List Accepted) : Prop := ∀ a ∈ h, ∀ l ∈ a.leaves, l.IsChecked

theorem AreChecked.nil : AreChecked [] := fun _ ha => absurd ha List.not_mem_nil

theorem AreChecked.append {g : List Accepted} (hh : AreChecked h) (hg : AreChecked g) :
    AreChecked (h ++ g) := fun a ha => (List.mem_append.1 ha).elim (hh a) (hg a)

theorem AreChecked.singleton {a : Accepted} (ha : ∀ l ∈ a.leaves, l.IsChecked) :
    AreChecked [a] := fun _ hb => List.mem_singleton.1 hb ▸ ha

theorem AreChecked.leaves_ofAccepted (hh : AreChecked h) :
    ∀ l ∈ Branch.leavesEach (Filter.ofAccepted h), l.IsChecked := by
  intro l hl
  obtain ⟨a, ha, hla⟩ := exists_of_mem_leaves hl
  exact hh a ha l hla

theorem AreChecked.ofCriterion {c : Criterion} (hc : c.IsWhere) :
    AreChecked (ofCriterion k c) := by
  unfold Accepted.ofCriterion
  cases hread : c.read with
  | error f => exact .nil
  | ok x =>
    refine .singleton ?_
    have hleaves := Criterion.leaves_read hc hread
    cases x with
    | onField field c => exact hleaves
    | raw sql binds => exact hleaves

theorem AreChecked.ofGroup {g : List Accepted} (hg : AreChecked g) :
    AreChecked (ofGroup k g) := by
  unfold Accepted.ofGroup
  split
  · exact .nil
  · exact .singleton hg.leaves_ofAccepted

theorem AreChecked.ofQuery {inner : Draft} {declaration : Document → Accepted}
    (hd : ∀ doc, inner.finished = .ok doc → ∀ l ∈ (declaration doc).leaves, l.IsChecked) :
    AreChecked (ofQuery inner declaration) := by
  unfold Accepted.ofQuery
  cases hdoc : inner.finished with
  | error f => exact .nil
  | ok doc => exact .singleton (hd doc hdoc)

end Accepted

end SqlSelect
