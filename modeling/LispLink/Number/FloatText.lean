/-
  LispLink.Number.FloatText
  ────────────────────────────────
  **DOUBLES AS TEXT.**

  Every format writes the shortest digits that read back.  What differs is one
  record: the decimal exponents that are written positionally, whether a
  positive exponent has a sign, how a tie between two shortest forms goes, and
  the words for what is no number.
-/
import LispLink.Number.Shortest

namespace LispLink.Number

/-- The decisions of a float format.  The exponent meant is that of the leading
digit. -/
structure FloatFormat where
  lowest : Int
  highest : Int
  plusSign : Bool
  tie : Tie
  infinite : String
  notANumber : String

namespace FloatFormat

/-- Floats in Lisp text: positional from 0.0001 to below 10^16, always with a
fraction; beyond that an exponent without a sign of its own. -/
def lisp : FloatFormat := ⟨-4, 15, false, .up, "inf", "NaN"⟩

/-- Floats in JSON text: positional from 0.00001 to below 10^16, and `null` for
what JSON cannot write. -/
def json : FloatFormat := ⟨-5, 15, true, .toEven, "null", "null"⟩

/-- Digits in positional notation, the first one having exponent `top`. -/
def positional (digits : List Char) (top : Int) : List Char :=
  if top < 0 then
    ['0', '.'] ++ List.replicate (-top - 1).toNat '0' ++ digits
  else
    let width := top.toNat + 1
    let whole := digits.take width
    let fraction := digits.drop width
    whole ++ List.replicate (width - whole.length) '0' ++ ['.']
      ++ (if fraction.isEmpty then ['0'] else fraction)

/-- Digits with an exponent; a single digit has no fraction. -/
def scientific (f : FloatFormat) (digits : List Char) (top : Int) : List Char :=
  let fraction := digits.drop 1
  digits.take 1 ++ (if fraction.isEmpty then [] else '.' :: fraction) ++ ['e']
    ++ (if top < 0 then ['-'] else if f.plusSign then ['+'] else [])
    ++ Nat.toDigits 10 top.natAbs

/-- A positive decimal: its digits without trailing zeros, set as the format
says. -/
def positive (f : FloatFormat) (d : Decimal) : List Char :=
  let all := Nat.toDigits 10 d.digits
  let top := d.exponent + all.length - 1
  let digits := (all.reverse.dropWhile (· == '0')).reverse
  if f.lowest ≤ top ∧ top ≤ f.highest then positional digits top
  else f.scientific digits top

/-- A double in the format.  What is no number has no sign where the format
has no word of its own for infinity. -/
def write (f : FloatFormat) (x : Double) : List Char :=
  let sign := if x.negative then ['-'] else []
  match x.magnitude with
  | .notANumber => f.notANumber.toList
  | .infinite => (if f.infinite = f.notANumber then [] else sign) ++ f.infinite.toList
  | .finite m q =>
    sign ++ (if m = 0 then ['0', '.', '0'] else f.positive (Shortest.decimal f.tie m q))

end FloatFormat

end LispLink.Number
