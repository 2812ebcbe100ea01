/-!
# The shortest decimal text of a binary number

A binary64 number stands for all real numbers that round to it. Its text is the one with the
fewest digits among these, and of those with equally many digits the nearest; it is written
without an exponent.

* `Binary64`: a number taken apart into sign, mantissa and exponent, with `Binary64.ofFloat`;
* `Rounding`: the reals that round to a number, as fractions over one denominator;
* `Rounding.onGrid?`: the point of the grid of multiples of `10 ^ s` that represents the number;
* `Rounding.shortest`: the representation on the coarsest grid that has one;
* `Binary64.text`: the text, such as `0.1`, `1e21` written out, `-0`, `NaN` or `-inf`.
-/

namespace SqlSelect

/-- A binary64 number taken apart. A finite one is `mantissa * 2 ^ exponent` with its sign. -/
inductive Binary64
  | nan
  | infinite (negative : Bool)
  | finite (negative : Bool) (mantissa : Nat) (exponent : Int)
  deriving DecidableEq, Repr

namespace Binary64

/-- The number with the given sign bit, 11 exponent bits and 52 fraction bits. -/
def ofFields (negative : Bool) (exponent fraction : Nat) : Binary64 :=
  if exponent = 2047 then
    if fraction = 0 then .infinite negative else .nan
  else if exponent = 0 then .finite negative fraction (-1074)
  else .finite negative (Nat.pow 2 52 + fraction) (exponent - 1075)

/-- A float taken apart. -/
def ofFloat (x : Float) : Binary64 :=
  let bits := x.toBits.toNat
  ofFields (bits / Nat.pow 2 63 = 1) (bits / Nat.pow 2 52 % Nat.pow 2 11)
    (bits % Nat.pow 2 52)

end Binary64

/-- The reals that round to the number `middle / denominator`: those from `low / denominator` to
`high / denominator`, the two ends included when `closed`. -/
structure Rounding where
  low : Nat
  middle : Nat
  high : Nat
  denominator : Nat
  closed : Bool
  deriving Repr

namespace Rounding

/-- The reals that round to `mantissa * 2 ^ exponent`. They reach half way to the two neighbours,
and the lower one is only half as far when the mantissa is the least of its binade. Ends belong to
even mantissas. -/
def ofFinite (mantissa : Nat) (exponent : Int) : Rounding :=
  let below := if mantissa = Nat.pow 2 52 ∧ exponent ≠ -1074 then 1 else 2
  let scale := Nat.pow 2 (exponent - 2).toNat
  { low := (4 * mantissa - below) * scale
    middle := 4 * mantissa * scale
    high := (4 * mantissa + 2) * scale
    denominator := Nat.pow 2 (2 - exponent).toNat
    closed := mantissa % 2 = 0 }

/-- Is `n / denominator` one of the reals? -/
def contains (r : Rounding) (n : Nat) : Bool :=
  if r.closed then r.low ≤ n && n ≤ r.high else r.low < n && n < r.high

/-- The same reals in the unit `10 ^ s`. -/
def inUnit (r : Rounding) (s : Int) : Rounding :=
  let up := Nat.pow 10 (-s).toNat
  { r with
    low := r.low * up
    middle := r.middle * up
    high := r.high * up
    denominator := r.denominator * Nat.pow 10 s.toNat }

/-- The multiple of the unit that is one of the reals; of two the nearer to the number, and the
greater if both are equally near. -/
def nearestInteger? (r : Rounding) : Option Nat :=
  let n := r.middle / r.denominator
  match r.contains (n * r.denominator), r.contains ((n + 1) * r.denominator) with
  | true, true => if 2 * (r.middle % r.denominator) < r.denominator then some n else some (n + 1)
  | true, false => some n
  | false, true => some (n + 1)
  | false, false => none

/-- The multiple of `10 ^ s` that represents the number, divided by `10 ^ s`. -/
def onGrid? (r : Rounding) (s : Int) : Option Nat := (r.inUnit s).nearestInteger?

/-- The exponents of the grids to search, from the coarsest. -/
def gridExponents : List Int := (List.range 640).map fun (i : Nat) => 308 - (i : Int)

/-- The representation on the coarsest grid that has one: `(d, s)` stands for `d * 10 ^ s`. -/
def shortest (r : Rounding) : Nat × Int :=
  (gridExponents.findSome? fun s => (r.onGrid? s).map (·, s)).getD (0, 0)

end Rounding

/-- The number `d * 10 ^ s` written out, without an exponent. -/
def positional (d : Nat) (s : Int) : List Char :=
  let digits := Nat.toDigits 10 d
  let places := (-s).toNat
  if places = 0 then digits ++ List.replicate s.toNat '0'
  else if places < digits.length then
    digits.take (digits.length - places) ++ '.' :: digits.drop (digits.length - places)
  else '0' :: '.' :: (List.replicate (places - digits.length) '0' ++ digits)

/-- The text of the magnitude `mantissa * 2 ^ exponent`. -/
def Binary64.magnitude (mantissa : Nat) (exponent : Int) : List Char :=
  if mantissa = 0 then ['0']
  else
    let shortest := (Rounding.ofFinite mantissa exponent).shortest
    positional shortest.1 shortest.2

/-- The text of a number. -/
def Binary64.text : Binary64 → List Char
  | nan => ['N', 'a', 'N']
  | infinite negative => (if negative then ['-'] else []) ++ ['i', 'n', 'f']
  | finite negative m e => (if negative then ['-'] else []) ++ magnitude m e

/-! ### Which characters a number is written with -/

theorem positional_ne_nil (d : Nat) (s : Int) : positional d s ≠ [] := by
  unfold positional
  dsimp only
  split
  · exact List.append_ne_nil_of_left_ne_nil Nat.toDigits_ne_nil _
  · split <;> simp

theorem Binary64.text_ne_nil (x : Binary64) : x.text ≠ [] := by
  cases x with
  | nan => simp [text]
  | infinite negative => simp [text]
  | finite negative m e =>
    refine List.append_ne_nil_of_right_ne_nil _ ?_
    unfold magnitude
    split
    · simp
    · exact positional_ne_nil _ _

/-- The characters that occur in the text of a number. -/
def isNumberChar (c : Char) : Bool := c.isDigit || ['-', '.', 'N', 'a', 'i', 'n', 'f'].contains c

theorem isNumberChar_of_mem_toDigits {c : Char} {d : Nat} (h : c ∈ Nat.toDigits 10 d) :
    isNumberChar c = true := by
  simp [isNumberChar, Nat.isDigit_of_mem_toDigits (by decide) (by decide) h]

theorem isNumberChar_of_mem_positional {c : Char} {d : Nat} {s : Int} (h : c ∈ positional d s) :
    isNumberChar c = true := by
  have digit := @isNumberChar_of_mem_toDigits c d
  unfold positional at h
  dsimp only at h
  split at h
  · rcases List.mem_append.1 h with h | h
    · exact digit h
    · rw [List.eq_of_mem_replicate h]; decide
  · split at h
    · rcases List.mem_append.1 h with h | h
      · exact digit (List.mem_of_mem_take h)
      · rcases List.mem_cons.1 h with rfl | h
        · decide
        · exact digit (List.mem_of_mem_drop h)
    · rcases List.mem_cons.1 h with rfl | h
      · decide
      · rcases List.mem_cons.1 h with rfl | h
        · decide
        · rcases List.mem_append.1 h with h | h
          · rw [List.eq_of_mem_replicate h]; decide
          · exact digit h

/-- The text of a number has digits, a minus, a point and the letters of `NaN` and `inf` only. -/
theorem Binary64.isNumberChar_of_mem_text {c : Char} {x : Binary64} (h : c ∈ x.text) :
    isNumberChar c = true := by
  have sign {b : Bool} (hc : c ∈ if b then ['-'] else []) : isNumberChar c = true := by
    cases b <;> simp_all
    decide
  cases x with
  | nan =>
    simp only [text, List.mem_cons, List.not_mem_nil, or_false] at h
    rcases h with rfl | rfl | rfl <;> decide
  | infinite negative =>
    rw [text] at h
    rcases List.mem_append.1 h with h | h
    · exact sign h
    · simp only [List.mem_cons, List.not_mem_nil, or_false] at h
      rcases h with rfl | rfl | rfl <;> decide
  | finite negative m e =>
    rw [text, magnitude] at h
    rcases List.mem_append.1 h with h | h
    · exact sign h
    · split at h
      · rw [List.mem_singleton.1 h]; decide
      · exact isNumberChar_of_mem_positional h

end SqlSelect
