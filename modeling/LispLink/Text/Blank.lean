/-
  LispLink.Text.Blank
  ────────────────────────────────
  **WHITE SPACE.**

  A character is blank when Unicode gives it the property White_Space.  The
  reader splits source text at blanks, so the class is wider than the four
  characters of `Char.isWhitespace`: it has the vertical tab, the form feed,
  the next-line control, the no-break spaces and the typographic spaces.
-/
import LispLink.Text.ScalarSet

namespace LispLink.Text

/-- White_Space above ASCII. -/
def blankTable : ScalarSet := ⟨[
  0x85, 0x86, 0xa0, 0xa1, 0x1680, 0x1681, 0x2000, 0x200b, 0x2028,
  0x202a, 0x202f, 0x2030, 0x205f, 0x2060, 0x3000, 0x3001]⟩

/-- The Unicode property White_Space. -/
def isBlank (c : Char) : Bool :=
  if c.toNat < 0x80 then c == ' ' || (9 ≤ c.toNat && c.toNat ≤ 13)
  else blankTable.contains c.toNat

end LispLink.Text
