import SqlSelect.Document

/-!
# WHERE clauses as lists of branches

A WHERE clause is a list of `Branch`es, at most one for a connective, in the order in which the
connectives were first used.

* `Filter.entries k`: the entries under a connective;
* `Filter.push k e`: one more entry under a connective;
* `Filter.putField k name cs`: the conditions on a field, in place of those it had;
* `Filter.isEmpty`: no entry under any connective;
* `Filter.renameFields f`: other names for the fields, also inside of groups.
-/

namespace SqlSelect

namespace Filter

/-- The entries under a connective. -/
def entries (k : Connective) (bs : List Branch) : List Entry :=
  ((bs.find? (·.connective == k)).map Branch.entries).getD []

/-- Changes the entries under a connective; a connective without a branch gets one at the end. -/
def update (k : Connective) (f : List Entry → List Entry) : List Branch → List Branch
  | [] => [⟨k, f []⟩]
  | b :: bs =>
    if b.connective = k then ⟨k, f b.entries⟩ :: bs else b :: update k f bs

/-- One more entry under a connective, behind the others. -/
def push (k : Connective) (e : Entry) (bs : List Branch) : List Branch :=
  update k (· ++ [e]) bs

/-- The entries with the conditions on a field: in place of those at its first entry, or in a new
entry at the end. -/
def putFieldEntry (name : String) (cs : List Condition) : List Entry → List Entry
  | [] => [.field name cs]
  | .field n ds :: es =>
    if n = name then .field name cs :: es else .field n ds :: putFieldEntry name cs es
  | e :: es => e :: putFieldEntry name cs es

/-- The conditions on a field under a connective. -/
def putField (k : Connective) (name : String) (cs : List Condition) (bs : List Branch) :
    List Branch :=
  update k (putFieldEntry name cs) bs

/-- Is there no entry at all? -/
def isEmpty (bs : List Branch) : Bool := bs.all fun b => b.entries.isEmpty

/-- The clause with the entries of the given branches, pushed one after the other. Branches of one
connective merge, and those without entries vanish. -/
def ofBranches (bs : List Branch) : List Branch :=
  bs.foldl (fun t b => b.entries.foldl (fun t e => push b.connective e t) t) []

mutual

/-- An entry with other names for its fields; documents in it keep theirs. -/
def renameEntry (f : String → String) : Entry → Entry
  | .field name cs => .field (f name) cs
  | .group bs => .group (renameFields f bs)
  | .raw sql binds => .raw sql binds
  | .exist query negated => .exist query negated

/-- Entries with other names for their fields. -/
def renameEntries (f : String → String) : List Entry → List Entry
  | [] => []
  | e :: es => renameEntry f e :: renameEntries f es

/-- A branch with other names for its fields. -/
def renameBranch (f : String → String) : Branch → Branch
  | ⟨k, es⟩ => ⟨k, renameEntries f es⟩

/-- Branches with other names for their fields. -/
def renameFields (f : String → String) : List Branch → List Branch
  | [] => []
  | b :: bs => renameBranch f b :: renameFields f bs

end

/-! ### What the operations do to the entries -/

theorem entries_update (k j : Connective) (f : List Entry → List Entry) (bs : List Branch) :
    entries j (update k f bs) = if j = k then f (entries k bs) else entries j bs := by
  induction bs with
  | nil =>
    by_cases h : j = k
    · simp [update, entries, h]
    · simp [update, entries, h, beq_false_of_ne (Ne.symm h)]
  | cons b bs ih =>
    rw [update]
    split
    · next hb =>
      by_cases h : j = k
      · simp [entries, h, hb]
      · simp [entries, h, hb, beq_false_of_ne (Ne.symm h)]
    · next hb =>
      by_cases h : b.connective = j
      · have hj : j ≠ k := fun e => hb (h.trans e)
        simp [entries, h, hj]
      · simp only [entries, List.find?_cons, beq_false_of_ne h, beq_false_of_ne hb] at ih ⊢
        exact ih

/-- The conditions on a field change the entries under their connective. -/
theorem entries_putField_self (k : Connective) (name : String) (cs : List Condition)
    (bs : List Branch) :
    entries k (putField k name cs bs) = putFieldEntry name cs (entries k bs) := by
  rw [putField, entries_update, if_pos rfl]

theorem renameEntries_eq_map (f : String → String) (es : List Entry) :
    renameEntries f es = es.map (renameEntry f) := by
  induction es with
  | nil => rfl
  | cons e es ih => simp [renameEntries, ih]

theorem renameFields_eq_map (f : String → String) (bs : List Branch) :
    renameFields f bs = bs.map (renameBranch f) := by
  induction bs with
  | nil => rfl
  | cons b bs ih => simp [renameFields, ih]

end Filter

end SqlSelect
