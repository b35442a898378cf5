/-
  LispLink.Text.CaseRun
  ────────────────────────────────
  **CASE MAPPINGS AS RUNS.**

  Simple case mappings come in runs: every character of the run, or every
  second one, moves by the same distance.  A table of runs is searched for the
  first one that holds the character.
-/

namespace LispLink.Text

/-- The code points `first`, `first + stride`, … up to `last`, all mapped by
adding `offset`. -/
structure CaseRun where
  first : Nat
  last : Nat
  stride : Nat
  offset : Int

namespace CaseRun

/-- Whether the run maps the code point `n`. -/
def holds (r : CaseRun) (n : Nat) : Bool :=
  r.first ≤ n && n ≤ r.last && (n - r.first) % r.stride == 0

/-- The image of `c` under the first run that holds it; `c` itself if none
does. -/
def mapChar (table : List CaseRun) (c : Char) : Char :=
  match table.find? (·.holds c.toNat) with
  | some r => Char.ofNat ((c.toNat : Int) + r.offset).toNat
  | none => c

end CaseRun

end LispLink.Text
