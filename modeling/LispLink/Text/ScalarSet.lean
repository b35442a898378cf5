/-
  LispLink.Text.ScalarSet
  ────────────────────────────────
  **SETS OF UNICODE SCALARS, WRITTEN AS FLIP POINTS.**

  A property of characters is stored as the ascending list of code points at
  which membership changes: outside before the first point, inside from the
  first to before the second, and so on.  One number per boundary is all the
  data a table module has to hold.
-/

namespace LispLink.Text

/-- A set of code points, given by the ascending points at which membership
flips; everything before the first point is outside. -/
structure ScalarSet where
  flips : List Nat

namespace ScalarSet

/-- Whether `n` lies in the set: walk the points up to `n`, starting outside. -/
def contains (s : ScalarSet) (n : Nat) : Bool :=
  go n false s.flips
where
  go (n : Nat) (inside : Bool) : List Nat → Bool
    | [] => inside
    | p :: ps => if n < p then inside else go n (!inside) ps

end ScalarSet

end LispLink.Text
