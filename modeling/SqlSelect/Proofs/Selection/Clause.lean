import SqlSelect.Junction
import SqlSelect.Proofs.Reading.Grammar

/-!
# Conditions and the rows that they let pass

A condition is written in segments: parentheses, connectives, and atomic conditions. What is inside
of an atomic condition is no matter here, be it raw SQL or a subquery.

* `Row`: the truth of each atomic condition;
* `Reader.read row ss`: the truth of segments, in one pass from left to right. `AND` binds closest,
  then `XOR`, then `OR`, and each of them joins from the left;
* `Term`, `Clause`: conditions as trees, with their segments and their truth. Reading the segments
  of a tree gives its truth (`Clause.read_segments`);
* `Clause.joined`, `Clause.several`: terms under one connective, and clauses that each bring their
  own, with parentheses around them unless there is only one.
-/

namespace SqlSelect

/-- A row, as the truth of each atomic condition. A condition is known by its pieces, values and
all. -/
abbrev Row := Fragment → Bool

/-! ### Truth values in a line -/

/-- Truth values with connectives between them. -/
structure Values where
  first : Bool
  rest : List (Connective × Bool)

namespace Values

/-- A truth value alone. -/
def ofBool (b : Bool) : Values := ⟨b, []⟩

/-- Truth values, a connective, and further truth values. -/
def link (v : Values) (k : Connective) (w : Values) : Values :=
  ⟨v.first, v.rest ++ (k, w.first) :: w.rest⟩

/-- The truth of the line. -/
def truth (v : Values) : Bool :=
  (Chain.formula ⟨.constant v.first, v.rest.map fun l => (l.1, .constant l.2)⟩).eval
    fun _ _ => false

/-- Under one connective the values are joined from the left. -/
theorem truth_eq_foldl {v : Values} {k : Connective} (h : ∀ l ∈ v.rest, l.1 = k) :
    v.truth = (v.rest.map Prod.snd).foldl k.apply v.first := by
  unfold truth
  rw [Chain.eval_formula (k := k)]
  · rw [List.map_map]
    rfl
  · intro l hl
    obtain ⟨l', hl', rfl⟩ := List.mem_map.1 hl
    exact h l' hl'

end Values

/-! ### Reading -/

/-- A part of a condition as it is written. -/
inductive Segment
  | opening
  | closing
  | connective (k : Connective)
  | atom (f : Fragment)

/-- How a segment is written. -/
def Segment.fragment : Segment → Fragment
  | opening => .ofText "("
  | closing => .ofText ")"
  | connective k => .ofText (Junction.separator k)
  | atom f => f

/-- How segments are written. -/
def Segment.write (ss : List Segment) : Fragment := ss.flatMap Segment.fragment

/-- What stands in front of a term: nothing, or values and a connective. -/
abbrev Front := Option (Values × Connective)

/-- The values with those in front of them. -/
def Front.add : Front → Values → Values
  | none, w => w
  | some (v, k), w => v.link k w

/-- How far a condition has been read. For each parenthesis that is open, the stack has what stands
in front of it. -/
inductive Reader
  /-- A term comes next. -/
  | before (front : Front) (stack : List Front)
  /-- A term has just been read. -/
  | behind (v : Values) (stack : List Front)

namespace Reader

variable (row : Row)

/-- Reads a segment. -/
def step : Reader → Segment → Option Reader
  | before front stack, .opening => some (before none (front :: stack))
  | before front stack, .atom f => some (behind (front.add (.ofBool (row f))) stack)
  | behind v stack, .connective k => some (before (some (v, k)) stack)
  | behind v (front :: stack), .closing => some (behind (front.add (.ofBool v.truth)) stack)
  | _, _ => none

/-- Reads segments. -/
def run (r : Reader) (ss : List Segment) : Option Reader := ss.foldlM (step row) r

/-- The truth of a condition that has been read to its end. -/
def truth? : Reader → Option Bool
  | behind v [] => some v.truth
  | _ => none

/-- The truth of a condition in segments. -/
def read (ss : List Segment) : Option Bool := (run row (before none []) ss).bind truth?

variable {row}

theorem run_append (r : Reader) (ss ts : List Segment) :
    run row r (ss ++ ts) = (run row r ss).bind fun r => run row r ts := List.foldlM_append

end Reader

/-! ### Trees -/

mutual

/-- An atomic condition, or a condition in parentheses. -/
inductive Term
  | atom (f : Fragment)
  | enclosed (c : Clause)

/-- Terms with connectives between them. -/
inductive Clause
  | single (t : Term)
  | linked (t : Term) (k : Connective) (c : Clause)

end

mutual

/-- The segments of a term. -/
def Term.segments : Term → List Segment
  | .atom f => [.atom f]
  | .enclosed c => .opening :: (c.segments ++ [.closing])

/-- The segments of a clause. -/
def Clause.segments : Clause → List Segment
  | .single t => t.segments
  | .linked t k c => t.segments ++ .connective k :: c.segments

end

mutual

/-- The truth of a term. -/
def Term.truth (row : Row) : Term → Bool
  | .atom f => row f
  | .enclosed c => (c.values row).truth

/-- The truth of the terms of a clause. -/
def Clause.values (row : Row) : Clause → Values
  | .single t => .ofBool (t.truth row)
  | .linked t k c => (Values.ofBool (t.truth row)).link k (c.values row)

end

/-- The truth of a clause. -/
def Clause.truth (row : Row) (c : Clause) : Bool := (c.values row).truth

/-- How a term is written. -/
def Term.write (t : Term) : Fragment := Segment.write t.segments

/-- How a clause is written. -/
def Clause.write (c : Clause) : Fragment := Segment.write c.segments

theorem Front.add_link (front : Front) (v : Values) (k : Connective) (w : Values) :
    Front.add (some (front.add v, k)) w = front.add (v.link k w) := by
  cases front with
  | none => rfl
  | some p => simp [Front.add, Values.link, List.append_assoc]

mutual

/-- A term is read wherever it stands. -/
theorem Term.run_segments (row : Row) (front : Front) (stack : List Front) :
    ∀ t : Term, Reader.run row (.before front stack) t.segments =
      some (.behind (front.add (.ofBool (t.truth row))) stack)
  | .atom f => rfl
  | .enclosed c => by
    have hc := Clause.run_segments row none (front :: stack) c
    show Reader.run row (.before none (front :: stack)) (c.segments ++ [.closing]) = _
    rw [Reader.run_append, hc, Term.truth]
    rfl

/-- A clause is read wherever it stands. -/
theorem Clause.run_segments (row : Row) (front : Front) (stack : List Front) :
    ∀ c : Clause, Reader.run row (.before front stack) c.segments =
      some (.behind (front.add (c.values row)) stack)
  | .single t => Term.run_segments row front stack t
  | .linked t k c => by
    have ht := Term.run_segments row front stack t
    have hc := Clause.run_segments row (some (front.add (.ofBool (t.truth row)), k)) stack c
    rw [Clause.segments, Reader.run_append, ht, Clause.values, ← Front.add_link]
    exact hc

end

/-- Reading the segments of a clause gives its truth. -/
theorem Clause.read_segments (row : Row) (c : Clause) :
    Reader.read row c.segments = some (c.truth row) := by
  rw [Reader.read, Clause.run_segments]
  rfl

/-- `a OR b AND (c OR d)` -/
example (row : Row) (a b c d : Fragment) :
    Reader.read row [.atom a, .connective .or, .atom b, .connective .and, .opening, .atom c,
      .connective .or, .atom d, .closing] = some (row a || (row b && (row c || row d))) := rfl

/-! ### Terms under one connective -/

namespace Clause

/-- Terms with the same connective between each two. -/
def joined (k : Connective) (t : Term) : List Term → Clause
  | [] => .single t
  | u :: us => .linked t k (joined k u us)

/-- Clauses in parentheses behind a term, each with its own connective in front. -/
def chained (t : Term) : List (Connective × Clause) → Clause
  | [] => .single t
  | (k, c) :: cs => .linked t k (chained (.enclosed c) cs)

/-- Several clauses as one. -/
def several : List (Connective × Clause) → Option Clause
  | [] => none
  | [(_, c)] => some c
  | (_, c) :: cs => some (chained (.enclosed c) cs)

variable (row : Row)

theorem values_joined (k : Connective) (t : Term) (ts : List Term) :
    (joined k t ts).values row = ⟨t.truth row, ts.map fun u => (k, u.truth row)⟩ := by
  induction ts generalizing t with
  | nil => rfl
  | cons u us ih =>
    rw [joined, values, ih]
    rfl

/-- Terms under `AND` must all be true. -/
theorem truth_joined_and (t : Term) (ts : List Term) :
    (joined .and t ts).truth row = (t :: ts).all fun u => u.truth row := by
  rw [truth, values_joined, Values.truth_eq_foldl (k := .and)]
  · rw [List.map_map, Connective.foldl_and, List.all_map, List.all_cons]
    rfl
  · intro l hl
    obtain ⟨u, -, rfl⟩ := List.mem_map.1 hl
    rfl

theorem values_chained (t : Term) (cs : List (Connective × Clause)) :
    (chained t cs).values row = ⟨t.truth row, cs.map fun c => (c.1, c.2.truth row)⟩ := by
  induction cs generalizing t with
  | nil => rfl
  | cons c cs ih =>
    rw [chained, values, ih]
    rfl

/-- The truth of several clauses is that of their truth values in a line. -/
theorem exists_several (k : Connective) (c : Clause) (cs : List (Connective × Clause)) :
    ∃ d, several ((k, c) :: cs) = some d ∧ ∀ row,
      d.truth row = Values.truth ⟨c.truth row, cs.map fun c => (c.1, c.2.truth row)⟩ := by
  cases cs with
  | nil => exact ⟨c, rfl, fun _ => rfl⟩
  | cons e es =>
    refine ⟨_, rfl, fun row => ?_⟩
    rw [truth, values_chained]
    rfl

end Clause

/-! ### Writing -/

namespace Segment

theorem write_append (ss ts : List Segment) : write (ss ++ ts) = write ss ++ write ts :=
  List.flatMap_append

end Segment

theorem Term.write_atom (f : Fragment) : (Term.atom f).write = f := List.append_nil f

/-- Parentheses stand around what is in them. -/
theorem Term.write_enclosed (c : Clause) : (Term.enclosed c).write = c.write.enclosed := by
  show Fragment.ofText "(" ++ Segment.write (c.segments ++ [.closing]) = _
  rw [Segment.write_append]
  rfl

theorem Clause.write_single (t : Term) : (Clause.single t).write = t.write := rfl

theorem Clause.write_linked (t : Term) (k : Connective) (c : Clause) :
    (Clause.linked t k c).write = t.write ++ .text (Junction.separator k) :: c.write := by
  show Segment.write (t.segments ++ .connective k :: c.segments) = _
  rw [Segment.write_append]
  rfl

theorem Clause.write_joined (k : Connective) (t : Term) (ts : List Term) :
    (joined k t ts).write = Fragment.join (Junction.separator k) ((t :: ts).map Term.write) := by
  induction ts generalizing t with
  | nil => rfl
  | cons u us ih => rw [joined, write_linked, ih]; rfl

/-- The clause is written as the junction, and there is something to it. -/
structure Clause.IsWritten (c : Connective × Clause) (j : Junction) : Prop where
  connective : c.1 = j.connective
  render : c.2.write = j.render
  visible : c.2.write.isEmpty = false

/-- Clauses behind a term are written as junctions behind another. -/
theorem Clause.write_chained (t : Term) {cs : List (Connective × Clause)} {js : List Junction}
    (h : List.Forall₂ IsWritten cs js) :
    (chained t cs).write = t.write ++ Junction.renderRest js := by
  induction h generalizing t with
  | nil => rw [chained, write_single, Junction.renderRest, List.append_nil]
  | cons hc _ ih =>
    rw [chained, write_linked, ih, Term.write_enclosed, hc.connective, hc.render]
    rfl

/-- Several clauses are written as several junctions. -/
theorem Clause.write_several {cs : List (Connective × Clause)} {js : List Junction}
    (h : List.Forall₂ IsWritten cs js) :
    ((several cs).map write).getD [] = Junction.renderNonempty js := by
  cases h with
  | nil => rfl
  | cons hc htail =>
    cases htail with
    | nil => exact hc.render
    | cons he hes =>
      show (chained (.enclosed _) _).write = _
      rw [write_chained _ (.cons he hes), Term.write_enclosed, hc.render]
      rfl

/-- What begins with a visible term is visible. -/
theorem Clause.isEmpty_write_linked {t : Term} (h : t.write.isEmpty = false) (k : Connective)
    (c : Clause) : (linked t k c).write.isEmpty = false := by
  rw [write_linked, Fragment.isEmpty, List.all_append]
  exact (congrArg (· && _) h).trans (Bool.false_and _)

theorem Clause.isEmpty_write_joined {t : Term} (h : t.write.isEmpty = false) (k : Connective)
    (ts : List Term) : (joined k t ts).write.isEmpty = false := by
  cases ts with
  | nil => exact h
  | cons u us => exact isEmpty_write_linked h k _

theorem Term.isEmpty_write_enclosed (c : Clause) : (enclosed c).write.isEmpty = false := rfl

theorem Clause.isEmpty_write_several {cs : List (Connective × Clause)} {js : List Junction}
    (h : List.Forall₂ IsWritten cs js) {d : Clause} (hd : several cs = some d) :
    d.write.isEmpty = false := by
  cases h with
  | nil => cases hd
  | cons hc htail =>
    cases htail with
    | nil =>
      cases hd
      exact hc.visible
    | cons he hes =>
      cases hd
      exact isEmpty_write_linked (Term.isEmpty_write_enclosed _) _ _

end SqlSelect
