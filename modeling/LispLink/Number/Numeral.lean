/-
  LispLink.Number.Numeral
  ────────────────────────────────
  **READING NUMBERS.**

  Integers are an optional sign and decimal digits; decimals may have a point
  and an exponent.  Only ASCII digits count as digits, and nothing may stand
  before or behind the number.  An exponent is read only so far as to be beyond
  every double.
-/
import LispLink.Number.Digits
import LispLink.Number.Double

namespace LispLink.Number

/-! ## §1. Integers. -/

/-- The value of a non-empty run of decimal digits. -/
def natOfDigits? (cs : List Char) : Option Nat :=
  if !cs.isEmpty && cs.all Char.isDigit then some (natOfDigits cs) else none

/-- Split a leading sign off; the flag says whether it is a minus. -/
def splitSign : List Char → Bool × List Char
  | '-' :: cs => (true, cs)
  | '+' :: cs => (false, cs)
  | cs => (false, cs)

/-- The integer that a text writes, with an optional sign. -/
def intOfChars? (cs : List Char) : Option Int :=
  let (negative, digits) := splitSign cs
  (natOfDigits? digits).map fun n => if negative then -(n : Int) else n

/-- The signed 64-bit integer that a text writes. -/
def int64OfChars? (cs : List Char) : Option Int64 :=
  (intOfChars? cs).bind fun n =>
    if Int64.minValue.toInt ≤ n ∧ n ≤ Int64.maxValue.toInt then some (Int64.ofInt n) else none

/-- The natural number below `bound` that a text writes with decimal digits
and perhaps a plus sign. -/
def natBelow? (bound : Nat) (text : String) : Option Nat :=
  let digits := match text.toList with
    | '+' :: cs => cs
    | cs => cs
  (natOfDigits? digits).filter (· < bound)

/-! ## §2. Exponents. -/

/-- An exponent that has got this far takes no more digits.  It is beyond every
double, unless the digits in front are about as many. -/
def exponentLimit : Nat := 0x10000

/-- An exponent after one more digit. -/
def addExponentDigit (n : Nat) (c : Char) : Nat :=
  if n < exponentLimit then 10 * n + (c.toNat - '0'.toNat) else n

/-- What a run of digits comes to as an exponent. -/
def exponentOfDigits (cs : List Char) : Nat := cs.foldl addExponentDigit 0

/-- The exponent behind the mark, and zero where there is no mark. -/
def exponentOfChars? : List Char → Option Int
  | [] => some 0
  | c :: cs =>
    let (negative, digits) := splitSign cs
    if (c = 'e' ∨ c = 'E') ∧ !digits.isEmpty ∧ digits.all Char.isDigit then
      let e : Int := exponentOfDigits digits
      some (if negative then -e else e)
    else none

/-! ## §3. Decimals. -/

/-- The double nearest to the decimal that a text writes: an optional sign,
digits with a point among, before or behind them, and perhaps an exponent. -/
def doubleOfChars? (cs : List Char) : Option Double :=
  let (negative, body) := splitSign cs
  let whole := body.takeWhile Char.isDigit
  let (fraction, rest) := match body.dropWhile Char.isDigit with
    | '.' :: more => (more.takeWhile Char.isDigit, more.dropWhile Char.isDigit)
    | more => ([], more)
  match natOfDigits? (whole ++ fraction), exponentOfChars? rest with
  | some digits, some e =>
    let width := ((whole ++ fraction).dropWhile (· == '0')).length
    some (Double.ofDecimal negative digits width (e - fraction.length))
  | _, _ => none

end LispLink.Number
