/-
  LispLink.Number.Shortest
  ────────────────────────────────
  **THE FEWEST DIGITS THAT READ BACK.**

  The reals that round to a double form an interval around it, which holds its
  end points if the double's integer `m` is even.  For one, two, … digits the
  two neighbours of the value on that decimal grid are tried, in exact integer
  arithmetic; the first grid with a neighbour in the interval gives the digits.
  Of two such neighbours the nearer is taken; how an exact tie goes is a
  parameter.
-/
import LispLink.Number.Double

namespace LispLink.Number

/-- Which of two neighbours at equal distance is taken. -/
inductive Tie where
  | up
  | toEven
  deriving DecidableEq, Repr

/-- A positive decimal: `digits · 10^exponent`. -/
structure Decimal where
  digits : Nat
  exponent : Int
  deriving DecidableEq, Repr

namespace Shortest

/-- The exponent of the highest power of ten that is at most `num / den`,
which is not zero. -/
def floorLog10 (num den : Nat) : Int :=
  let guess := (Double.floorLog2 num den * 30103).fdiv 100000
  if atMost (guess + 1) then guess + 1
  else if atMost guess then guess
  else guess - 1
where
  /-- Whether `10^k ≤ num / den`. -/
  atMost (k : Int) : Bool :=
    if 0 ≤ k then den * Nat.pow 10 k.toNat ≤ num else den ≤ num * Nat.pow 10 (-k).toNat

/-- Whether `c` grid steps lie in the interval of the double whose value is
`m · gap / step` grid steps.  The gap below is half as wide when `narrow`. -/
def inside (m gap step : Nat) (narrow : Bool) (c : Nat) : Bool :=
  let point := 4 * c * step
  let low := (4 * m - (if narrow then 1 else 2)) * gap
  let high := (4 * m + 2) * gap
  if m % 2 = 0 then low ≤ point && point ≤ high else low < point && point < high

/-- The neighbour on the grid of step `10^p` that reads back as `m · 2^q`, if
one does. -/
def onGrid (tie : Tie) (m : Nat) (q : Int) (p : Int) : Option Nat :=
  let gap := Nat.pow 2 q.toNat * Nat.pow 10 (-p).toNat
  let step := Nat.pow 2 (-q).toNat * Nat.pow 10 p.toNat
  let narrow := m = 0x10000000000000 && q ≠ -1074
  let below := m * gap / step
  let above := below + 1
  match inside m gap step narrow below, inside m gap step narrow above with
  | false, false => none
  | true, false => some below
  | false, true => some above
  | true, true =>
    let toBelow := m * gap - below * step
    let toAbove := above * step - m * gap
    if toBelow < toAbove then some below
    else if toAbove < toBelow then some above
    else match tie with
      | .up => some above
      | .toEven => some (if below % 2 = 0 then below else above)

/-- Try the grids with `width`, `width + 1`, … digits; `top` is the exponent of
the leading digit. -/
def search (tie : Tie) (m : Nat) (q : Int) (top : Int) (width : Nat) : Nat → Decimal
  | 0 => ⟨m, q⟩
  | tries + 1 =>
    let p := top + 1 - width
    match onGrid tie m q p with
    | some c => ⟨c, p⟩
    | none => search tie m q top (width + 1) tries

/-- The shortest decimal that reads back as the positive number `m · 2^q`.
Seventeen digits always suffice. -/
def decimal (tie : Tie) (m : Nat) (q : Int) : Decimal :=
  search tie m q (floorLog10 (m * Nat.pow 2 q.toNat) (Nat.pow 2 (-q).toNat)) 1 17

end Shortest

end LispLink.Number
