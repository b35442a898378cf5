/-
  LispLink.Package.LineRange
  ────────────────────────────────
  **RANGES OF LINES.**

  A range runs from its first line to its last, both included, or without end.
-/

namespace LispLink.Package

/-- A range of lines; without a last line it runs on forever. -/
structure LineRange where
  first : Nat
  last : Option Nat
  deriving DecidableEq, Repr

namespace LineRange

/-- Everything from `line` on. -/
def openFrom (line : Nat) : LineRange := ⟨line, none⟩

/-- Whether the range goes on at or behind `line`. -/
def reaches (r : LineRange) (line : Nat) : Bool :=
  match r.last with
  | none => true
  | some l => line ≤ l

/-- Whether the range holds `line`. -/
def contains (r : LineRange) (line : Nat) : Bool := r.first ≤ line && r.reaches line

/-- What is left of the range when another one begins at `line`. -/
def cutAt (r : LineRange) (line : Nat) : Option LineRange :=
  if !r.reaches line then some r
  else if line ≤ r.first then none
  else some ⟨r.first, some (line - 1)⟩

end LineRange

end LispLink.Package
