import SqlSelect.Document
import SqlSelect.Proofs.Reading.Tokens

/-!
# Reading a condition

The grammar of conditions is the usual one:

* a condition is primaries with connectives between them. `AND` binds closest, then `XOR`, then
  `OR`, and each of them joins from the left;
* a primary is a condition in parentheses, `NOT` in front of a primary, or a test;
* a test is a comparison, `LIKE`, `IN`, `BETWEEN x AND y` or `IS NULL`, negated or not, or one of
  the constants `1=0` and `1=1`.

`Formula.read?` reads a text with its values as a `Formula`, and `Formula.eval` is the truth of a
formula when each test is given a truth value. `IsPrimary ts f` and `IsCondition ts f` say that the
tokens `ts` are read as `f` wherever they stand; they are put together as the grammar puts phrases
together, and no other lemma looks into the reader.
-/

namespace SqlSelect

/-- A truth value for each test: a field and what is demanded of it. -/
abbrev Truth := String → Condition → Bool

/-- The connective on truth values. -/
def Connective.apply : Connective → Bool → Bool → Bool
  | and, a, b => a && b
  | or, a, b => a || b
  | xor, a, b => a ^^ b

theorem Connective.foldl_and (b : Bool) (bs : List Bool) :
    bs.foldl Connective.and.apply b = (b && bs.all id) := by
  induction bs generalizing b with
  | nil => simp
  | cons c bs ih => simp [ih, Connective.apply, Bool.and_assoc]

/-- A condition as it is understood. -/
inductive Formula
  | test (field : String) (c : Condition)
  | constant (b : Bool)
  | not (f : Formula)
  | join (k : Connective) (f g : Formula)

/-- The truth of a formula. -/
def Formula.eval (σ : Truth) : Formula → Bool
  | test field c => σ field c
  | constant b => b
  | not f => !f.eval σ
  | join k f g => k.apply (f.eval σ) (g.eval σ)

/-! ### Chains -/

/-- Formulas with connectives between them. -/
structure Chain where
  first : Formula
  rest : List (Connective × Formula)

namespace Chain

/-- Joins the formulas that stand on both sides of a connective, from the left. -/
def joinFrom (k : Connective) (f : Formula) : List (Connective × Formula) → Chain
  | [] => ⟨f, []⟩
  | (j, g) :: rest =>
    if j = k then joinFrom k (.join k f g) rest
    else ⟨f, (j, (joinFrom k g rest).first) :: (joinFrom k g rest).rest⟩

/-- Joins the formulas that stand on both sides of a connective, from the left. -/
def join (k : Connective) (c : Chain) : Chain := joinFrom k c.first c.rest

/-- The formula of a chain: `AND` binds closest, then `XOR`, then `OR`. -/
def formula (c : Chain) : Formula := (((c.join .and).join .xor).join .or).first

/-- Under the connective of all links a chain becomes one formula. -/
theorem joinFrom_self {k : Connective} {rest : List (Connective × Formula)}
    (h : ∀ l ∈ rest, l.1 = k) (f : Formula) :
    joinFrom k f rest = ⟨rest.foldl (fun f l => .join k f l.2) f, []⟩ := by
  induction rest generalizing f with
  | nil => rfl
  | cons l rest ih =>
    obtain ⟨j, g⟩ := l
    obtain rfl : j = k := h _ List.mem_cons_self
    rw [joinFrom, if_pos rfl, ih (fun l hl => h l (List.mem_cons_of_mem _ hl)) _]
    rfl

/-- A chain without a connective stays as it is under that connective. -/
theorem joinFrom_of_ne {j k : Connective} (hjk : j ≠ k) {rest : List (Connective × Formula)}
    (h : ∀ l ∈ rest, l.1 = k) (f : Formula) : joinFrom j f rest = ⟨f, rest⟩ := by
  induction rest generalizing f with
  | nil => rfl
  | cons l rest ih =>
    obtain ⟨i, g⟩ := l
    obtain rfl : i = k := h _ List.mem_cons_self
    rw [joinFrom, if_neg (Ne.symm hjk), ih fun l hl => h l (List.mem_cons_of_mem _ hl)]

/-- A chain of one connective is joined from the left. -/
theorem formula_eq_foldl {k : Connective} {c : Chain} (h : ∀ l ∈ c.rest, l.1 = k) :
    c.formula = c.rest.foldl (fun f l => .join k f l.2) c.first := by
  have hself := joinFrom_self h c.first
  have hne : ∀ j, j ≠ k → joinFrom j c.first c.rest = c := fun j hj => joinFrom_of_ne hj h c.first
  cases k with
  | and => simp [formula, join, hself, joinFrom]
  | xor => simp [formula, join, hself, joinFrom, hne .and]
  | or => simp [formula, join, hself, hne .and, hne .xor]

theorem eval_foldl (σ : Truth) (k : Connective) (rest : List (Connective × Formula)) (f : Formula) :
    (rest.foldl (fun f l => .join k f l.2) f).eval σ =
      (rest.map fun l => l.2.eval σ).foldl k.apply (f.eval σ) := by
  induction rest generalizing f with
  | nil => rfl
  | cons l rest ih => exact ih _

/-- The truth of a chain of one connective is the connective on the truth of its formulas. -/
theorem eval_formula (σ : Truth) {k : Connective} {c : Chain} (h : ∀ l ∈ c.rest, l.1 = k) :
    c.formula.eval σ = (c.rest.map fun l => l.2.eval σ).foldl k.apply (c.first.eval σ) := by
  rw [formula_eq_foldl h, eval_foldl]

end Chain

/-! ### The reader -/

namespace Formula

/-- The comparison that a sign stands for. -/
def comparison? (sign : String) : Option Comparison :=
  [.eq, .neq, .gt, .ge, .lt, .le].find? fun op : Comparison => op.sql = sign

/-- The constant that two numbers and a sign between them make. -/
def constant? (left sign right : String) : Option Bool :=
  if left = "1" ∧ sign = "=" then
    if right = "1" then some true else if right = "0" then some false else none
  else none

/-- Reads values up to the closing parenthesis. -/
def readValues : List (Token Value) → Option (List Value × List (Token Value))
  | .mark v :: .closing :: ts => some ([v], ts)
  | .mark v :: .comma :: ts => (readValues ts).map fun (vs, ts) => (v :: vs, ts)
  | _ => none

/-- Reads a test behind its field and a `NOT`, if there is one. -/
def readNegatable (field : String) (negated : Bool) :
    List (Token Value) → Option (Formula × List (Token Value))
  | .keyword .like :: .mark v :: ts =>
    some (.test field (.compare (if negated then .notLike else .like) v), ts)
  | .keyword .within :: .opening :: ts =>
    (readValues ts).map fun (vs, ts) => (.test field (.inList vs negated), ts)
  | .keyword .between :: .mark low :: .keyword (.connective .and) :: .mark high :: ts =>
    some (.test field (.between low high negated), ts)
  | _ => none

/-- Reads a test behind its field. -/
def readTest (field : String) : List (Token Value) → Option (Formula × List (Token Value))
  | .sign s :: .mark v :: ts => (comparison? s).map fun op => (.test field (.compare op v), ts)
  | .sign s :: .word right :: ts => (constant? field s right).map fun b => (.constant b, ts)
  | .keyword .is :: .keyword .null :: ts => some (.test field .isNull, ts)
  | .keyword .is :: .keyword .not :: .keyword .null :: ts => some (.test field .isNotNull, ts)
  | .keyword .not :: ts => readNegatable field true ts
  | ts => readNegatable field false ts

mutual

/-- Reads a condition. No phrase needs more steps than it has tokens, and one. -/
def readCondition : Nat → List (Token Value) → Option (Formula × List (Token Value))
  | 0, _ => none
  | n + 1, ts => do
    let (f, ts) ← readPrimary n ts
    let (rest, ts) ← readLinks n ts
    return (Chain.formula ⟨f, rest⟩, ts)

/-- Reads connectives, each with the primary behind it. -/
def readLinks : Nat → List (Token Value) →
    Option (List (Connective × Formula) × List (Token Value))
  | 0, _ => none
  | n + 1, .keyword (.connective k) :: ts => do
    let (f, ts) ← readPrimary n ts
    let (rest, ts) ← readLinks n ts
    return ((k, f) :: rest, ts)
  | _ + 1, ts => some ([], ts)

/-- Reads a primary. -/
def readPrimary : Nat → List (Token Value) → Option (Formula × List (Token Value))
  | n + 1, .opening :: ts =>
    match readCondition n ts with
    | some (f, .closing :: ts) => some (f, ts)
    | _ => none
  | n + 1, .keyword .not :: ts => (readPrimary n ts).map fun (f, ts) => (.not f, ts)
  | _ + 1, .word field :: ts => readTest field ts
  | _, _ => none

end

/-- Reads all of the tokens; there may be none. -/
def readAll? : List (Token Value) → Option (Option Formula)
  | [] => some none
  | t :: ts =>
    match readCondition (ts.length + 2) (t :: ts) with
    | some (f, []) => some (some f)
    | _ => none

/-- Reads a text with the values for its marks. A text without tokens is read as no condition. -/
def read? (sql : String) (values : List Value) : Option (Option Formula) :=
  (Token.bind (Token.scan sql) values).bind readAll?

end Formula

open Formula

/-! ### Phrases -/

variable {ts us : List (Token Value)} {f : Formula}

/-- No connective stands next. -/
def Stops (ts : List (Token Value)) : Prop := ∀ k us, ts ≠ .keyword (.connective k) :: us

/-- The tokens are read as a test of the field in front of them. -/
def IsTest (field : String) (ts : List (Token Value)) (f : Formula) : Prop :=
  ∀ us, readTest field (ts ++ us) = some (f, us)

/-- The tokens are read as a primary. -/
structure IsPrimary (ts : List (Token Value)) (f : Formula) : Prop where
  pos : 0 < ts.length
  read : ∀ n us, ts.length ≤ n → readPrimary n (ts ++ us) = some (f, us)

/-- The tokens are read as connectives, each with the primary behind it. -/
def IsLinks (ts : List (Token Value)) (ls : List (Connective × Formula)) : Prop :=
  ∀ n us, ts.length < n → Stops us → readLinks n (ts ++ us) = some (ls, us)

/-- The tokens are read as a condition. -/
structure IsCondition (ts : List (Token Value)) (f : Formula) : Prop where
  pos : 0 < ts.length
  read : ∀ n us, ts.length < n → Stops us → readCondition n (ts ++ us) = some (f, us)

theorem stops_nil : Stops [] := fun _ _ h => absurd h (List.cons_ne_nil _ _).symm

theorem stops_closing (ts : List (Token Value)) : Stops (.closing :: ts) := by
  intro k us h
  exact absurd (List.cons.inj h).1 (by simp)

/-- A field with a test behind it is a primary. -/
theorem IsTest.isPrimary {field : String} (h : IsTest field ts f) :
    IsPrimary (.word field :: ts) f where
  pos := by simp
  read n us hn := by
    obtain ⟨m, rfl⟩ := Nat.exists_eq_add_one_of_ne_zero (n := n) (by
      rintro rfl
      simp at hn)
    rw [List.cons_append, readPrimary]
    exact h us

/-- A condition in parentheses is a primary. -/
theorem IsCondition.isPrimary (h : IsCondition ts f) :
    IsPrimary (.opening :: (ts ++ [.closing])) f where
  pos := by simp
  read n us hn := by
    simp only [List.length_cons, List.length_append, List.length_nil] at hn
    obtain ⟨m, rfl⟩ : ∃ m, n = m + 1 := ⟨n - 1, by omega⟩
    have hread := h.read m (.closing :: us) (by omega) (stops_closing us)
    rw [List.cons_append, List.append_assoc, readPrimary]
    simp only [List.cons_append, List.nil_append, hread]

theorem IsLinks.nil : IsLinks [] [] := by
  intro n us hn hstop
  obtain ⟨m, rfl⟩ : ∃ m, n = m + 1 := ⟨n - 1, by simp at hn; omega⟩
  rw [List.nil_append, readLinks]
  exact fun k ts h => hstop k ts h

/-- One more link. -/
theorem IsPrimary.link (k : Connective) (h : IsPrimary ts f) {ls : List (Connective × Formula)}
    (hls : IsLinks us ls) : IsLinks (.keyword (.connective k) :: (ts ++ us)) ((k, f) :: ls) := by
  intro n vs hn hstop
  simp only [List.length_cons, List.length_append] at hn
  obtain ⟨m, rfl⟩ : ∃ m, n = m + 1 := ⟨n - 1, by omega⟩
  have hf := h.read m (us ++ vs) (by omega)
  have hrest := hls m vs (by have := h.pos; omega) hstop
  rw [List.cons_append, List.append_assoc, readLinks, hf]
  simp [hrest]

/-- A primary with links behind it is a condition. -/
theorem IsPrimary.chain (h : IsPrimary ts f) {ls : List (Connective × Formula)}
    (hls : IsLinks us ls) : IsCondition (ts ++ us) (Chain.formula ⟨f, ls⟩) where
  pos := by
    have := h.pos
    rw [List.length_append]
    omega
  read n vs hn hstop := by
    have hpos := h.pos
    rw [List.length_append] at hn
    obtain ⟨m, rfl⟩ : ∃ m, n = m + 1 := ⟨n - 1, by omega⟩
    have hf := h.read m (us ++ vs) (by omega)
    have hrest := hls m vs (by omega) hstop
    rw [List.append_assoc, readCondition, hf]
    simp [hrest]

/-- A condition that is all of the tokens is read as a whole. -/
theorem IsCondition.readAll? (h : IsCondition ts f) : readAll? ts = some (some f) := by
  cases ts with
  | nil => exact absurd h.pos (by simp)
  | cons t ts =>
    have hread := h.read (ts.length + 2) [] (by simp) stops_nil
    rw [List.append_nil] at hread
    rw [Formula.readAll?, hread]

/-- `a IS NULL OR b IS NULL AND NOT c IS NULL` -/
example : Formula.readAll? [.word "a", .keyword .is, .keyword .null, .keyword (.connective .or),
      .word "b", .keyword .is, .keyword .null, .keyword (.connective .and), .keyword .not,
      .word "c", .keyword .is, .keyword .null] =
    some (some (.join .or (.test "a" .isNull) (.join .and (.test "b" .isNull)
      (.not (.test "c" .isNull))))) := rfl

end SqlSelect
