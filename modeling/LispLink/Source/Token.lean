/-
  LispLink.Source.Token
  ────────────────────────────────
  **A TEXT AS ITS TOKENS.**

  `tokenize` cuts a text into tokens without losing a character: it is one
  pass that keeps the tokens finished so far and the one in progress.

      tokenize s  =  ((Lexing.begin).pushAll s.toList).tokens
-/
import LispLink.Source.Lexeme
import LispLink.Source.Position

namespace LispLink.Source

/-- A token: its kind, the places before and behind it, and its text. -/
structure Token where
  kind : Kind
  start : Position
  stop : Position
  text : String
  deriving DecidableEq, Repr

/-! ## §1. The token in progress. -/

/-- A token of which at least one character has been read. -/
structure OpenToken where
  lexeme : Lexeme
  start : Position
  stop : Position
  text : String
  deriving DecidableEq, Repr

namespace OpenToken

/-- The token in progress after its first character `c`, read at `p`. -/
def start1 (p : Position) (c : Char) : OpenToken :=
  ⟨Lexeme.start c, p, p.after c, String.singleton c⟩

/-- The same token one character further, in state `s`. -/
def extend (t : OpenToken) (s : Lexeme) (c : Char) : OpenToken :=
  ⟨s, t.start, t.stop.after c, t.text.push c⟩

/-- The token, complete as it stands. -/
def close (t : OpenToken) : Token :=
  ⟨t.lexeme.kind t.text, t.start, t.stop, t.text⟩

end OpenToken

/-! ## §2. The pass. -/

/-- What a pass over a text holds: the complete tokens and the one in progress,
which is missing only before the first character. -/
structure Lexing where
  done : Array Token
  current : Option OpenToken

namespace Lexing

/-- Nothing read yet. -/
def begin : Lexing := ⟨#[], none⟩

/-- Read one character: it extends the token in progress or completes it and
begins the next, which starts where that one stops. -/
def push (s : Lexing) (c : Char) : Lexing :=
  match s with
  | ⟨done, none⟩ => ⟨done, some (.start1 .origin c)⟩
  | ⟨done, some t⟩ =>
    match t.lexeme.step c with
    | some q => ⟨done, some (t.extend q c)⟩
    | none => ⟨done.push t.close, some (.start1 t.stop c)⟩

/-- Read a text. -/
def pushAll (s : Lexing) (cs : List Char) : Lexing :=
  cs.foldl push s

/-- The tokens of what has been read, the one in progress taken as complete. -/
def tokens (s : Lexing) : List Token :=
  match s.current with
  | none => s.done.toList
  | some t => (s.done.push t.close).toList

@[simp] theorem pushAll_nil (s : Lexing) : s.pushAll [] = s := rfl

@[simp] theorem pushAll_cons (s : Lexing) (c : Char) (cs : List Char) :
    s.pushAll (c :: cs) = (s.push c).pushAll cs := rfl

theorem pushAll_append (s : Lexing) (as bs : List Char) :
    s.pushAll (as ++ bs) = (s.pushAll as).pushAll bs := by
  simp [pushAll]

end Lexing

/-- The tokens of a text, in order. -/
def tokenize (text : String) : List Token :=
  (Lexing.begin.pushAll text.toList).tokens

end LispLink.Source
