/-
  LispLink.Text.AsciiCase
  ────────────────────────────────
  **EQUALITY UP TO THE CASE OF ASCII LETTERS.**

  Keywords and binding names are compared without regard to the case of the
  letters from A to Z; every other character has to be the same.
-/

namespace LispLink.Text

/-- A text with its ASCII letters in lower case. -/
def foldLetters (s : String) : List Char := s.toList.map Char.toLower

/-- Whether two texts differ at most in the case of ASCII letters. -/
def sameLetters (s t : String) : Bool := foldLetters s == foldLetters t

@[simp] theorem sameLetters_iff {s t : String} :
    sameLetters s t = true ↔ foldLetters s = foldLetters t := by
  simp [sameLetters]

end LispLink.Text
