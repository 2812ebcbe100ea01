import SqlSelect.Text.LetterCase

/-!
# Reading a number

* `Numeral`: what a text says that is a number: an optional sign, then `nan`, `inf` or `infinity`
  in any case, or digits with an optional point and an optional exponent;
* `Numeral.parse?`: reads a text, and refuses what is not wholly a number;
* `BinaryFormat.nearest`: the number of a binary format that is nearest to a quotient;
* `Numeral.toFloat`, `Numeral.toSingle`: the float nearest to what was read, directly or by way of
  the 32-bit format.
-/

namespace SqlSelect

/-- What the text of a number says. A decimal is `digits * 10 ^ exponent` with its sign. -/
inductive Numeral
  | nan
  | infinity (negative : Bool)
  | decimal (negative : Bool) (digits : Nat) (exponent : Int)
  deriving DecidableEq, Repr

namespace Numeral

/-- Takes an optional sign off the front; `true` for a minus. -/
def takeSign : List Char → Bool × List Char
  | '-' :: cs => (true, cs)
  | '+' :: cs => (false, cs)
  | cs => (false, cs)

/-- The number that decimal digits write. -/
def ofDigits (cs : List Char) : Nat := cs.foldl (fun n c => 10 * n + (c.toNat - '0'.toNat)) 0

/-- The exponent that ends a number: nothing, or the letter `e`, an optional sign and digits. -/
def exponent? : List Char → Option Int
  | [] => some 0
  | c :: cs =>
    let (negative, digits) := takeSign cs
    if c.toLower = 'e' ∧ digits ≠ [] ∧ digits.all Char.isDigit then
      some (if negative then -(ofDigits digits : Int) else ofDigits digits)
    else none

/-- The fraction after the digits before the point: its digits and what follows them. -/
def takeFraction : List Char → List Char × List Char
  | '.' :: cs => (cs.takeWhile Char.isDigit, cs.dropWhile Char.isDigit)
  | cs => ([], cs)

/-- Reads digits with an optional point and an optional exponent. At least one digit is needed. -/
def decimal? (negative : Bool) (cs : List Char) : Option Numeral :=
  let whole := cs.takeWhile Char.isDigit
  let (fraction, rest) := takeFraction (cs.dropWhile Char.isDigit)
  if whole = [] ∧ fraction = [] then none
  else
    (exponent? rest).map fun e =>
      .decimal negative (ofDigits (whole ++ fraction)) (e - fraction.length)

/-- Reads a number. -/
def parse? (cs : List Char) : Option Numeral :=
  let (negative, body) := takeSign cs
  match String.ofList (Chars.lowerAscii body) with
  | "nan" => some .nan
  | "inf" => some (.infinity negative)
  | "infinity" => some (.infinity negative)
  | _ => decimal? negative body

end Numeral

/-- A binary format: how many bits a mantissa has, the exponent of the least number, and the
exponent from which numbers are infinite. -/
structure BinaryFormat where
  precision : Nat
  least : Int
  top : Int

namespace BinaryFormat

/-- The 64-bit format. -/
def double : BinaryFormat := ⟨53, -1074, 1024⟩

/-- The 32-bit format. -/
def single : BinaryFormat := ⟨24, -149, 128⟩

/-- The quotient nearest to `n / d`, the even one if two are equally near. -/
def roundQuotient (n d : Nat) : Nat :=
  let q := n / d
  let r := n % d
  if 2 * r < d ∨ (2 * r = d ∧ q % 2 = 0) then q else q + 1

/-- The mantissa and exponent nearest to the positive quotient `n / d`. -/
def nearest (f : BinaryFormat) (n d : Nat) : Nat × Int :=
  let scaled (e : Int) : Nat × Nat := (n * Nat.pow 2 (-e).toNat, d * Nat.pow 2 e.toNat)
  let e := (n.log2 : Int) - d.log2 - f.precision
  let e := if Nat.pow 2 f.precision ≤ (scaled e).1 / (scaled e).2 then e + 1 else e
  let e := max e f.least
  (roundQuotient (scaled e).1 (scaled e).2, e)

/-- The float of a magnitude `digits * 10 ^ exponent` read in the format. A magnitude far outside
the range of every format is not computed. -/
def toFloat (f : BinaryFormat) (digits : Nat) (exponent : Int) : Float :=
  let size := (Nat.toDigits 10 digits).length + exponent
  if digits = 0 ∨ size < -400 then 0
  else if 400 < size then 1 / 0
  else
    let (m, e) :=
      f.nearest (digits * Nat.pow 10 exponent.toNat) (Nat.pow 10 (-exponent).toNat)
    if f.top ≤ m.log2 + e then 1 / 0 else (Float.ofNat m).scaleB e

end BinaryFormat

namespace Numeral

/-- The float nearest to the number in the given format. -/
def toFloatIn (f : BinaryFormat) : Numeral → Float
  | nan => 0 / 0
  | infinity negative => if negative then -(1 / 0) else 1 / 0
  | decimal negative digits exponent =>
    let x := f.toFloat digits exponent
    if negative then -x else x

/-- The float nearest to the number. -/
def toFloat : Numeral → Float := toFloatIn .double

/-- The 32-bit float nearest to the number, as a float. -/
def toSingle : Numeral → Float := toFloatIn .single

end Numeral

end SqlSelect
