/-
  LispLink.Source.Position
  ────────────────────────────────
  **PLACES IN A TEXT.**

  A position is the number of line breaks passed and the number of characters
  since the last one, both from zero.  Columns count Unicode scalar values,
  not bytes.
-/

namespace LispLink.Source

/-- A place between two characters of a text. -/
structure Position where
  line : Nat
  col : Nat
  deriving DecidableEq, Repr

namespace Position

/-- The start of a text. -/
def origin : Position := ⟨0, 0⟩

/-- The place behind the character `c` read at `p`: a line feed opens the next
line, anything else takes one column. -/
def after (p : Position) (c : Char) : Position :=
  if c = '\n' then ⟨p.line + 1, 0⟩ else ⟨p.line, p.col + 1⟩

/-- The place behind the text `cs` read from `p`. -/
def afterAll (p : Position) (cs : List Char) : Position :=
  cs.foldl after p

@[simp] theorem afterAll_nil (p : Position) : p.afterAll [] = p := rfl

@[simp] theorem afterAll_cons (p : Position) (c : Char) (cs : List Char) :
    p.afterAll (c :: cs) = (p.after c).afterAll cs := rfl

@[simp] theorem afterAll_append (p : Position) (as bs : List Char) :
    p.afterAll (as ++ bs) = (p.afterAll as).afterAll bs := by
  simp [afterAll]

end Position

end LispLink.Source
