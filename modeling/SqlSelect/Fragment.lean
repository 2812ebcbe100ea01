import SqlSelect.Placeholder

/-!
# Fragments

A fragment of a statement is a list of pieces: text, marks with their values, and raw SQL with its
binds. It can be looked at in three ways, and each is compositional.

* `Fragment.sql`: the text, in which marks are written `?`;
* `Fragment.params`: the parameters, in the order of the pieces;
* `Fragment.inlined`: the text with each value written in the place of its own mark.

Writing a fragment puts its text and its parameters behind those that are written already, piece by
piece (`Fragment.write`).
-/

namespace SqlSelect

/-- A piece of a statement. -/
inductive Piece
  /-- Text without binds. -/
  | text (s : String)
  /-- A positional mark and its value. -/
  | mark (v : Value)
  /-- Raw SQL that has its own marks, and its binds. -/
  | raw (sql : String) (binds : List Param)

namespace Piece

/-- The piece as text. -/
def sql : Piece → String
  | text s => s
  | mark _ => "?"
  | raw s _ => s

/-- The parameters of the piece. -/
def params : Piece → List Param
  | text _ => []
  | mark v => [.positional v]
  | raw _ binds => binds

/-- The piece as text, with its values in place. -/
def inlined : Piece → String
  | text s => s
  | mark v => v.literal
  | raw s binds => Placeholder.inlined s binds

end Piece

/-- What is written of a statement. -/
structure Output where
  sql : String := ""
  params : List Param := []

/-- A part of a statement, as its pieces from left to right. -/
abbrev Fragment := List Piece

namespace Fragment

/-- The text. -/
def sql : Fragment → String
  | [] => ""
  | p :: ps => p.sql ++ sql ps

/-- The parameters, in the order of the pieces. -/
def params (f : Fragment) : List Param := f.flatMap Piece.params

/-- The text with each value in the place of its own mark. -/
def inlined : Fragment → String
  | [] => ""
  | p :: ps => p.inlined ++ inlined ps

/-- Puts the text and the parameters of each piece behind what is written. -/
def write (o : Output) (f : Fragment) : Output :=
  f.foldl (fun o p => ⟨o.sql ++ p.sql, o.params ++ p.params⟩) o

/-- The fragment of a text. -/
def ofText (s : String) : Fragment := [.text s]

/-- Is the text empty? -/
def isEmpty (f : Fragment) : Bool := f.all fun p => p.sql = ""

/-- The fragments that have any text. -/
def visible (fs : List Fragment) : List Fragment := fs.filter fun f => !Fragment.isEmpty f

/-- The fragments with a text between each two. -/
def join (sep : String) : List Fragment → Fragment
  | [] => []
  | [f] => f
  | f :: g :: fs => f ++ .text sep :: join sep (g :: fs)

/-- The fragment between two texts. -/
def within (before after : String) (f : Fragment) : Fragment :=
  .text before :: (f ++ [.text after])

/-- The fragment in parentheses. -/
def enclosed (f : Fragment) : Fragment := within "(" ")" f

/-- The fragment in parentheses if there is any text in it. -/
def enclosedIfAny (f : Fragment) : Fragment := if f.isEmpty then [] else f.enclosed

/-- Marks for some values, with commas between them. -/
def marks (vs : List Value) : Fragment := join "," (vs.map fun v => [.mark v])

/-- The fragments joined by `AND`, in parentheses if there are several. -/
def conjoined : List Fragment → Fragment
  | [] => []
  | [f] => f
  | fs => (join " AND " fs).enclosed

@[simp] theorem sql_nil : sql [] = "" := rfl
@[simp] theorem sql_cons (p : Piece) (f : Fragment) : sql (p :: f) = p.sql ++ sql f := rfl
@[simp] theorem params_nil : params [] = [] := rfl
@[simp] theorem params_cons (p : Piece) (f : Fragment) :
    params (p :: f) = p.params ++ params f := rfl
@[simp] theorem inlined_nil : inlined [] = "" := rfl
@[simp] theorem inlined_cons (p : Piece) (f : Fragment) :
    inlined (p :: f) = p.inlined ++ inlined f := rfl

@[simp] theorem sql_append (f g : Fragment) : sql (f ++ g) = sql f ++ sql g := by
  induction f with
  | nil => simp
  | cons p f ih => simp [ih, String.append_assoc]

@[simp] theorem params_append (f g : Fragment) : params (f ++ g) = params f ++ params g := by
  simp [params]

@[simp] theorem inlined_append (f g : Fragment) :
    inlined (f ++ g) = inlined f ++ inlined g := by
  induction f with
  | nil => simp
  | cons p f ih => simp [ih, String.append_assoc]

theorem write_eq (o : Output) (f : Fragment) :
    f.write o = ⟨o.sql ++ f.sql, o.params ++ f.params⟩ := by
  induction f generalizing o with
  | nil => simp [write]
  | cons p f ih =>
    have h : Fragment.write o (p :: f) =
        Fragment.write ⟨o.sql ++ p.sql, o.params ++ p.params⟩ f := rfl
    rw [h, ih]
    simp [String.append_assoc]

@[simp] theorem isEmpty_iff {f : Fragment} : f.isEmpty = true ↔ f.sql = "" := by
  induction f with
  | nil => simp [isEmpty]
  | cons p f ih =>
    simp only [isEmpty, List.all_cons, Bool.and_eq_true, decide_eq_true_eq, sql_cons] at ih ⊢
    rw [ih, String.append_eq_empty_iff]

end Fragment

end SqlSelect
