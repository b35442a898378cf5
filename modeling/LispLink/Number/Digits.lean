/-
  LispLink.Number.Digits
  ────────────────────────────────
  **THE NUMBER THAT DIGITS WRITE.**

  A text may hold a million digits, and a number that grows digit by digit is
  copied once for each of them.  So a long run is cut into halves, and halves
  into halves, until the pieces are short:

      value of (a then b)  =  value of a · 10^(length of b) + value of b

  The number is the one that reading digit by digit gives (`natOfDigits_eq`).
-/

namespace LispLink.Number

/-- The number that decimal digits write, by cutting the digits into halves
`depth` times. -/
def joinHalves : Nat → List Char → Nat
  | 0, cs => Nat.ofDigitChars 10 cs 0
  | depth + 1, cs =>
    let front := cs.take (cs.length / 2)
    let back := cs.drop (cs.length / 2)
    joinHalves depth front * Nat.pow 10 back.length + joinHalves depth back

/-- The number that decimal digits write. -/
def natOfDigits (cs : List Char) : Nat := joinHalves (cs.length / 128).log2 cs

theorem joinHalves_eq (depth : Nat) (cs : List Char) :
    joinHalves depth cs = Nat.ofDigitChars 10 cs 0 := by
  induction depth generalizing cs with
  | zero => rfl
  | succ depth ih =>
    have join (a b : List Char) : Nat.ofDigitChars 10 (a ++ b) 0
        = Nat.ofDigitChars 10 a 0 * Nat.pow 10 b.length + Nat.ofDigitChars 10 b 0 := by
      rw [Nat.ofDigitChars_append, Nat.ofDigitChars_eq_ofDigitChars_zero, Nat.mul_comm]
      rfl
    rw [joinHalves, ih, ih, ← join, List.take_append_drop]

/-- Cutting changes nothing: the number is that of reading digit by digit. -/
theorem natOfDigits_eq (cs : List Char) : natOfDigits cs = Nat.ofDigitChars 10 cs 0 :=
  joinHalves_eq _ cs

end LispLink.Number
