/-
  LispLink.Source.Paint
  ────────────────────────────────
  **WHAT AN EDITOR PAINTS.**

  Two ways to colour a text.  `quickPaint` needs the tokens alone and matches
  their parens; `paint` reads the text and knows names and data as well.
  Either leaves white space out, and both flag the same parens.
-/
import LispLink.Source.Reading

namespace LispLink.Source

/-- A stretch of text with its kind and whether it is data. -/
structure Span where
  start : Position
  stop : Position
  kind : Kind
  taint : Taint
  deriving DecidableEq, Repr

/-! ## §1. Matching parens. -/

/-- What a pass that matches parens holds: the kinds so far and the indices of
the parens that are open, innermost first. -/
structure Matching where
  kinds : Array Kind
  opened : List Nat

namespace Matching

/-- Pass one token: a close paren takes the innermost open one away, and is
stray if there is none. -/
def push (m : Matching) (kind : Kind) : Matching :=
  let ⟨kinds, opened⟩ := m
  match kind with
  | .openParen =>
    let index := kinds.size
    ⟨kinds.push kind, index :: opened⟩
  | .closeParen =>
    match opened with
    | [] => ⟨kinds.push .strayParen, []⟩
    | _ :: rest => ⟨kinds.push kind, rest⟩
  | _ => ⟨kinds.push kind, opened⟩

/-- The kinds at the end of the text, where the outermost paren that is still
open shows as unclosed. -/
def finish (m : Matching) : Array Kind :=
  match m.opened.getLast? with
  | none => m.kinds
  | some i => m.kinds.setIfInBounds i .unclosedParen

end Matching

/-- The lexical kinds of a token list, but for parens that have no partner. -/
def balance (ts : List Token) : List Kind :=
  ((ts.map Token.kind).foldl Matching.push ⟨#[], []⟩).finish.toList

/-! ## §2. Painting. -/

/-- The spans of the tokens that are not white space. -/
def spans (ts : List Token) (classes : List TokenClass) : List Span :=
  ((ts.zip classes).filter (·.1.kind ≠ .whitespace)).map fun (t, c) =>
    ⟨t.start, t.stop, c.kind, c.taint⟩

/-- Paint a text by its tokens. -/
def quickPaint (text : String) : List Span :=
  let ts := tokenize text
  spans ts ((balance ts).map (⟨·, .none⟩))

/-- Paint a text by its expressions. -/
def paint (text : String) : List Span :=
  let ts := tokenize text
  spans ts (read ts).classes

end LispLink.Source
