/-!
# Maps from names to names

A `NameMap` tells the alias of a table or the column behind a field of a view. Its entries keep
the order in which their keys first came; putting in a key again replaces its value in place.
-/

namespace SqlSelect

/-- A finite map from names to names. -/
structure NameMap where
  entries : List (String × String) := []
  deriving DecidableEq, Repr, Inhabited

namespace NameMap

/-- The value of a key. -/
def get? (m : NameMap) (key : String) : Option String := m.entries.lookup key

/-- The entries with `key` at `value`, in place if the key is there and else at the end. -/
def insertEntry (key value : String) : List (String × String) → List (String × String)
  | [] => [(key, value)]
  | (k, v) :: es => if k = key then (key, value) :: es else (k, v) :: insertEntry key value es

/-- The map with `key` at `value`. -/
def insert (m : NameMap) (key value : String) : NameMap := ⟨insertEntry key value m.entries⟩

/-- The map of some pairs; of two pairs with one key the later counts. -/
def ofList (pairs : List (String × String)) : NameMap :=
  pairs.foldl (fun m (key, value) => m.insert key value) {}

@[simp] theorem get?_empty (key : String) : get? {} key = none := rfl

theorem lookup_insertEntry (key value other : String) (es : List (String × String)) :
    (insertEntry key value es).lookup other =
      if other = key then some value else es.lookup other := by
  induction es with
  | nil =>
    by_cases h : other = key
    · simp [insertEntry, h]
    · simp [insertEntry, List.lookup_cons, h, beq_false_of_ne h]
  | cons e es ih =>
    obtain ⟨k, v⟩ := e
    rw [insertEntry]
    split
    · next hk =>
      by_cases h : other = key
      · simp [h]
      · simp [List.lookup_cons, h, hk, beq_false_of_ne h]
    · next hk =>
      by_cases h : other = k
      · simp [h, hk]
      · simp [List.lookup_cons, ih, beq_false_of_ne h]

theorem get?_insert (m : NameMap) (key value other : String) :
    (m.insert key value).get? other = if other = key then some value else m.get? other :=
  lookup_insertEntry key value other m.entries

@[simp] theorem get?_insert_self (m : NameMap) (key value : String) :
    (m.insert key value).get? key = some value := by
  simp [get?_insert]

end NameMap

end SqlSelect
