import SqlSelect.Proofs.Reading.Grammar
import SqlSelect.Proofs.Reading.Names
import SqlSelect.Render

/-!
# What a WHERE clause means

The meaning is taken from the clause itself and not from its text.

* `Condition.holds`: the truth of a condition on a field;
* `Entry.meaning`, `Filter.meaning`: the truth of an entry and of a clause. An entry that says
  nothing, such as a group without conditions, has none;
* `Filter.IsPlain`: clauses of tests on plain fields and groups of them, with no more than two
  connectives at a level that have conditions. Only these have a meaning here.
-/

namespace SqlSelect

/-- The truth of a condition on a field. No value is in the empty list, and equality with null is a
test for null. -/
def Condition.holds (σ : Truth) (field : String) : Condition → Bool
  | .compare .eq .null => σ field .isNull
  | .compare .neq .null => σ field .isNotNull
  | .inList [] negated => negated
  | c => σ field c

/-- Truth values joined by a connective, from the left. -/
def Connective.fold (k : Connective) : List Bool → Option Bool
  | [] => none
  | b :: bs => some (bs.foldl k.apply b)

/-- The truth of conditions on a field text: each of them holds, of any or of all of the fields that
the text stands for. -/
def Name.meaning (σ : Truth) (field : String) (cs : List Condition) : Option Bool :=
  match fanOut? field with
  | some (k, names) => k.fold (names.map fun n => cs.all (Condition.holds σ n))
  | none => some (cs.all (Condition.holds σ field))

/-- Truth values joined in order, each by the connective in front of it. -/
def Branch.combine : List (Connective × Bool) → Option Bool
  | [] => none
  | (_, b) :: rest => some (rest.foldl (fun a (k, c) => k.apply a c) b)

mutual

/-- The truth of an entry. -/
def Entry.meaning (σ : Truth) : Entry → Option Bool
  | .field name cs => Name.meaning σ name cs
  | .group bs => Branch.combine (Branch.meanings σ bs)
  | .raw _ _ => none
  | .exist _ _ => none

/-- The truth values of the entries that have any. -/
def Entry.meanings (σ : Truth) : List Entry → List Bool
  | [] => []
  | e :: es => (Entry.meaning σ e).toList ++ Entry.meanings σ es

/-- The truth values of the branches that have any, with their connectives. -/
def Branch.meanings (σ : Truth) : List Branch → List (Connective × Bool)
  | [] => []
  | ⟨k, es⟩ :: bs =>
    ((k.fold (Entry.meanings σ es)).map fun b => (k, b)).toList ++ Branch.meanings σ bs

end

namespace Filter

/-- The truth of a clause. -/
def meaning (σ : Truth) (bs : List Branch) : Option Bool :=
  Branch.combine (Branch.meanings σ bs)

/-- The branches that have conditions, as they are written. -/
def populated (s : Scope) (bs : List Branch) : List Junction :=
  (Branch.renderEach s bs).filter fun j => !j.parts.isEmpty

theorem length_populated_le (s : Scope) (bs : List Branch) :
    (populated s bs).length ≤ bs.length := by
  have h := List.length_filter_le (fun j : Junction => !j.parts.isEmpty) (Branch.renderEach s bs)
  rw [Branch.renderEach_eq_map, List.length_map] at h
  rw [populated, Branch.renderEach_eq_map]
  exact h

end Filter

/-- Is the condition a test with values? -/
def Condition.isTest : Condition → Bool
  | .compare _ _ => true
  | .isNull => true
  | .isNotNull => true
  | .inList _ _ => true
  | .between _ _ _ => true
  | _ => false

/-- An entry of tests on plain fields. -/
inductive Entry.IsPlain (s : Scope) : Entry → Prop
  | field {name : String} {cs : List Condition} :
    Name.fields name ≠ [] → (∀ n ∈ Name.fields name, Name.IsPlain n) →
    cs ≠ [] → (∀ c ∈ cs, c.isTest = true) → IsPlain s (.field name cs)
  | group {bs : List Branch} :
    (Filter.populated s bs).length ≤ 2 → (∀ b ∈ bs, ∀ e ∈ b.entries, IsPlain s e) →
    IsPlain s (.group bs)

/-- A clause of tests on plain fields. -/
structure Filter.IsPlain (s : Scope) (bs : List Branch) : Prop where
  few : (populated s bs).length ≤ 2
  entries : ∀ b ∈ bs, ∀ e ∈ b.entries, e.IsPlain s

end SqlSelect
