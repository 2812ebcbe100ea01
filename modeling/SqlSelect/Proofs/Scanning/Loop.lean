import Mathlib.Logic.Function.Iterate
import SqlSelect.Proofs.Scanning.Fronts
import SqlSelect.Proofs.Scanning.Utf8

/-!
# Looking for marks byte by byte

The marks of a text can be found by a loop over its bytes with two positions: `here`, the byte that
is looked at next, and `start`, where the text begins that has not been given out. The loop gives
out spans, and the text is cut at their ends.

* `Loop`, `Loop.turn`: the loop, and one turn of it;
* `Loop.scan?`: the tokens that it finds, if the text can be cut for all of them;
* `Loop.isOver_last`: the loop ends, after no more turns than there are bytes;
* `Loop.Reaches`: what the loop comes to in some turns. Over bytes at which it does not stop it goes
  on (`Loop.reaches_skip`).
-/

namespace SqlSelect

namespace Placeholder

open Utf8

/-- A piece of text between two positions, a positional mark, or the name of a mark. -/
inductive Span
  | text (i j : Nat)
  | positional
  | named (i j : Nat)
  deriving DecidableEq, Repr

/-- The token of a span. There is none where the text cannot be cut. -/
def Span.token? (s : String) : Span → Option Token
  | text i j => (slice? s i j).map .text
  | positional => some .positional
  | named i j => (slice? s i j).map .named

/-- The loop between two turns. -/
structure Loop where
  /-- Where the text begins that has not been given out. -/
  start : Nat := 0
  /-- The byte that is looked at next. -/
  here : Nat := 0
  /-- Is the loop in quoted text? -/
  quoted : Bool := false
  /-- What has been given out. -/
  spans : List Span := []
  deriving DecidableEq, Repr

namespace Loop

/-- Goes on by some bytes. -/
def skip (l : Loop) (n : Nat) : Loop := { l with here := l.here + n }

/-- The text up to a position that has not been given out, if there is any. -/
def piece (l : Loop) (j : Nat) : List Span := if l.start < j then [.text l.start j] else []

/-- Gives out a mark with the text in front of it. The text behind it begins at `next`. -/
def give (l : Loop) (mark : Span) (next : Nat) : Loop :=
  { l with start := next, spans := l.spans ++ l.piece l.here ++ [mark] }

/-- The first position from `i` on that is in no name. -/
def nameEnd (bs : List UInt8) (i : Nat) : Nat :=
  i + ((bs.drop i).takeWhile fun b => isNameChar (Char.ofUInt8 b)).length

/-- One turn behind a colon: another colon, a name, or neither. -/
def turnColon (bs : List UInt8) (l : Loop) : Loop :=
  if charAt bs (l.here + 1) = some ':' then l.skip 2
  else
    let stop := nameEnd bs (l.here + 1)
    let l' :=
      if l.here + 1 < stop ∧ (charAt bs (l.here + 1)).any isNameStart then
        l.give (.named (l.here + 1) stop) stop
      else l
    { l' with here := max stop (l.here + 1) }

/-- One turn at a byte, which is `c` as a character. -/
def turnAt (bs : List UInt8) (l : Loop) (c : Char) : Loop :=
  if l.quoted then
    if c = '\\' then l.skip 2
    else if c = '\'' then { l.skip 1 with quoted := false }
    else l.skip 1
  else if c = '\'' then { l.skip 1 with quoted := true }
  else if c = '?' then (l.give .positional (l.here + 1)).skip 1
  else if c = ':' then l.turnColon bs
  else l.skip 1

/-- One turn. Behind the last byte the loop stays as it is. -/
def turn (bs : List UInt8) (l : Loop) : Loop :=
  match charAt bs l.here with
  | none => l
  | some c => l.turnAt bs c

/-- Have all bytes been looked at? -/
def IsOver (bs : List UInt8) (l : Loop) : Prop := bs.length ≤ l.here

/-- The loop after as many turns as there are bytes. -/
def last (s : String) : Loop := (turn (bytes s))^[s.utf8ByteSize] {}

/-- All spans of a text: those given out in the loop, and the text behind them. -/
def spansOf (s : String) : List Span := (last s).spans ++ (last s).piece s.utf8ByteSize

/-- The tokens that the loop finds in a text, if the text can be cut for all of them. -/
def scan? (s : String) : Option (List Token) := (spansOf s).mapM (Span.token? s)

example : scan? "é = ? AND t::y < :x" =
    some [.text "é = ", .positional, .text " AND t::y < ", .named "x"] := by decide

variable {bs : List UInt8} {l l' l'' : Loop}

theorem turnColon_of_name {n : Nat} (hcolon : charAt bs (l.here + 1) ≠ some ':')
    (hstart : (charAt bs (l.here + 1)).any isNameStart = true)
    (hstop : nameEnd bs (l.here + 1) = l.here + n) (hn : 1 < n) :
    l.turnColon bs = (l.give (.named (l.here + 1) (l.here + n)) (l.here + n)).skip n := by
  have hmax : max (l.here + n) (l.here + 1) = l.here + n := by omega
  simp [turnColon, hcolon, hstart, hstop, hn, hmax, skip, give]

theorem turnColon_of_alone {n : Nat} (hcolon : charAt bs (l.here + 1) ≠ some ':')
    (hstart : (charAt bs (l.here + 1)).any isNameStart = false)
    (hstop : nameEnd bs (l.here + 1) = l.here + n) (hn : 1 ≤ n) : l.turnColon bs = l.skip n := by
  have hmax : max (l.here + n) (l.here + 1) = l.here + n := by omega
  simp [turnColon, hcolon, hstart, hstop, hmax, skip]

/-! ### The loop ends -/

/-- Each turn goes on. -/
theorem here_lt_turnAt (bs : List UInt8) (l : Loop) (c : Char) :
    l.here < (l.turnAt bs c).here := by
  unfold turnAt turnColon
  split_ifs <;> simp [skip, give]

theorem turn_of_charAt {c : Char} (h : charAt bs l.here = some c) :
    turn bs l = l.turnAt bs c := by
  rw [turn, h]

theorem turn_of_isOver (h : IsOver bs l) : turn bs l = l := by
  rw [turn, charAt_eq_none_iff.2 h]

theorem here_lt_turn (h : ¬ IsOver bs l) : l.here < (turn bs l).here := by
  obtain ⟨c, hc⟩ := Option.ne_none_iff_exists'.1 (mt charAt_eq_none_iff.1 h)
  rw [turn_of_charAt hc]
  exact here_lt_turnAt bs l c

/-- After `n` turns the loop has come by `n` bytes, or to the end. -/
theorem isOver_or_le_here (bs : List UInt8) (l : Loop) (n : Nat) :
    IsOver bs ((turn bs)^[n] l) ∨ n ≤ ((turn bs)^[n] l).here := by
  induction n with
  | zero => exact .inr (Nat.zero_le _)
  | succ n ih =>
    rw [Function.iterate_succ_apply']
    by_cases hover : IsOver bs ((turn bs)^[n] l)
    · rw [turn_of_isOver hover]
      exact .inl hover
    · have hlt := here_lt_turn hover
      have hle := ih.resolve_left hover
      exact .inr (by omega)

/-- The loop ends, after no more turns than there are bytes. -/
theorem isOver_last (s : String) : IsOver (bytes s) (last s) := by
  rcases isOver_or_le_here (bytes s) {} s.utf8ByteSize with h | h
  · exact h
  · rwa [IsOver, length_bytes]

/-! ### Several turns -/

/-- The loop comes from one state to another. -/
def Reaches (bs : List UInt8) (l l' : Loop) : Prop := ∃ n, (turn bs)^[n] l = l'

namespace Reaches

theorem refl (bs : List UInt8) (l : Loop) : Reaches bs l l := ⟨0, rfl⟩

theorem trans (h : Reaches bs l l') (h' : Reaches bs l' l'') : Reaches bs l l'' := by
  obtain ⟨n, rfl⟩ := h
  obtain ⟨m, rfl⟩ := h'
  exact ⟨m + n, Function.iterate_add_apply _ _ _ _⟩

theorem of_turn (h : Reaches bs (turn bs l) l') : Reaches bs l l' :=
  trans ⟨1, rfl⟩ h

/-- An end that is reached is the last state, since the loop goes on no further. -/
theorem last_eq {s : String} (h : Reaches (bytes s) {} l) (hover : IsOver (bytes s) l) :
    last s = l := by
  obtain ⟨n, hn⟩ := h
  have hstays : ∀ m, (turn (bytes s))^[m] l = l := Function.iterate_fixed (turn_of_isOver hover)
  have hlast := Function.iterate_fixed (turn_of_isOver (isOver_last s)) n
  rw [last, ← Function.iterate_add_apply, Nat.add_comm, Function.iterate_add_apply, hn,
    hstays] at hlast
  exact hlast.symm

end Reaches

theorem isAscii_stops (quoted : Bool) : IsAscii (stops quoted) := by
  intro c hc
  cases quoted with
  | true => rcases stops_true_iff.1 hc with rfl | rfl <;> decide
  | false => rcases stops_false_iff.1 hc with rfl | rfl | rfl <;> decide

theorem turnAt_of_not_stops {c : Char} (hc : stops l.quoted c = false) :
    l.turnAt bs c = l.skip 1 := by
  cases hq : l.quoted with
  | true =>
    have h : c ≠ '\\' ∧ c ≠ '\'' := by simpa [stops, hq] using hc
    simp [turnAt, hq, h]
  | false =>
    have h : c ≠ '\'' ∧ c ≠ '?' ∧ c ≠ ':' := isInert_iff.1 (by simpa [stops, hq] using hc)
    simp [turnAt, hq, h]

/-- Over bytes at which it does not stop the loop goes on. -/
theorem reaches_skip {front mid back : List UInt8} (hbs : bs = front ++ (mid ++ back))
    (hhere : l.here = front.length) (hmid : ∀ b ∈ mid, stops l.quoted (Char.ofUInt8 b) = false) :
    Reaches bs l (l.skip mid.length) := by
  induction mid generalizing l front with
  | nil => exact .refl bs l
  | cons b mid ih =>
    obtain ⟨hb, hmid⟩ := List.forall_mem_cons.1 hmid
    have hchar : charAt bs l.here = some (Char.ofUInt8 b) := by
      rw [hbs, hhere]
      exact charAt_length_append _ _ _
    have hbs' : bs = (front ++ [b]) ++ (mid ++ back) := by simp [hbs]
    have hgo := ih (l := l.skip 1) hbs' (by simp [skip, hhere]) hmid
    refine .of_turn ?_
    rw [turn_of_charAt hchar, turnAt_of_not_stops hb]
    simpa [skip, Nat.add_assoc, Nat.add_comm 1] using hgo

end Loop

end Placeholder

end SqlSelect
