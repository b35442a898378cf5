/-
  LispLink.Number.Double
  ────────────────────────────────
  **DOUBLE-PRECISION NUMBERS AS BIT PATTERNS.**

  A double is its 64 bits.  Nothing here computes with the machine's floating
  point: numbers enter by rounding an exact fraction to the nearest double, a
  half going to the even neighbour, and leave through their exact value

      m · 2^q        with  m < 2^53,  −1074 ≤ q ≤ 971.
-/

namespace LispLink.Number

/-- A double-precision number, by its sign bit, eleven exponent bits and
fifty-two fraction bits. -/
structure Double where
  bits : UInt64
  deriving DecidableEq, Repr

/-- The value of a double apart from its sign. -/
inductive Magnitude where
  | infinite
  | notANumber
  /-- The number `m · 2^q`. -/
  | finite (m : Nat) (q : Int)
  deriving DecidableEq, Repr

namespace Double

/-- The bits of infinity without the sign; every finite double has less. -/
def infiniteBits : Nat := 0x7ff0000000000000

/-- The double with the given sign and the given bits below it. -/
def ofParts (negative : Bool) (low : Nat) : Double :=
  ⟨UInt64.ofNat ((if negative then 0x8000000000000000 else 0) + low)⟩

/-- Positive zero. -/
def zero : Double := ofParts false 0

/-- Infinity of the given sign. -/
def infinity (negative : Bool) : Double := ofParts negative infiniteBits

/-- The canonical not-a-number. -/
def nan : Double := ofParts false 0x7ff8000000000000

/-- Whether the sign bit is set. -/
def negative (x : Double) : Bool := 0x8000000000000000 ≤ x.bits.toNat

/-- The value apart from the sign. -/
def magnitude (x : Double) : Magnitude :=
  let low := x.bits.toNat % 0x8000000000000000
  let exponent := low / 0x10000000000000
  let fraction := low % 0x10000000000000
  if exponent = 0x7ff then (if fraction = 0 then .infinite else .notANumber)
  else if exponent = 0 then .finite fraction (-1074)
  else .finite (fraction + 0x10000000000000) ((exponent : Int) - 1075)

/-! ## §1. Rounding. -/

/-- The exponent of the highest power of two that is at most `num / den`. -/
def floorLog2 (num den : Nat) : Int :=
  let k := (num.log2 : Int) - den.log2
  let reached :=
    if 0 ≤ k then den * Nat.pow 2 k.toNat ≤ num else den ≤ num * Nat.pow 2 (-k).toNat
  if reached then k else k - 1

/-- The quotient rounded to the nearest natural number, a half to the even
one. -/
def divNearest (num den : Nat) : Nat :=
  let q := num / den
  let r := num % den
  if den < 2 * r ∨ (2 * r = den ∧ q % 2 = 1) then q + 1 else q

/-- The bits below the sign of the double nearest to `num / den`. -/
def nearestBits (num den : Nat) : Nat :=
  if num = 0 then 0
  else
    let q := max (floorLog2 num den - 52) (-1074)
    let m := if 0 ≤ q then divNearest num (den * Nat.pow 2 q.toNat)
      else divNearest (num * Nat.pow 2 (-q).toNat) den
    min (m + (q + 1074).toNat * 0x10000000000000) infiniteBits

/-- The double nearest to a fraction of the given sign. -/
def ofRatio (negative : Bool) (num den : Nat) : Double :=
  ofParts negative (nearestBits num den)

/-- The double nearest to an integer. -/
def ofInt (n : Int) : Double := ofRatio (n < 0) n.natAbs 1

/-- The double nearest to `digits · 10^exponent`, where `digits` is a number of
`width` digits.  Far outside the range of doubles the exponent alone
decides, so that no power of ten gets out of hand. -/
def ofDecimal (negative : Bool) (digits width : Nat) (exponent : Int) : Double :=
  if digits = 0 then ofParts negative 0
  else if 400 < exponent + width then infinity negative
  else if exponent + width < -400 then ofParts negative 0
  else if 0 ≤ exponent then ofRatio negative (digits * Nat.pow 10 exponent.toNat) 1
  else ofRatio negative digits (Nat.pow 10 (-exponent).toNat)

end Double

end LispLink.Number
