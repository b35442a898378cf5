/-
  LispLink.Value.Reading
  ────────────────────────────────
  **EXPRESSIONS AS VALUES.**

  An expression stands for a value: strings lose their quotes and escapes,
  `nil` and `t` are known in any case, a colon makes a keyword, numbers are
  numbers, and what is left is a symbol.  Lists keep their elements; an empty
  one is `nil`.  What was quoted is not told apart.
-/
import LispLink.Number.Numeral
import LispLink.Source.Reading
import LispLink.Value.Basic

namespace LispLink.Value

open Number Source

/-- Drop backslashes; the character behind one stands for itself, and one at
the very end for nothing. -/
def unescape : List Char → List Char
  | [] => []
  | ['\\'] => []
  | '\\' :: c :: rest => c :: unescape rest
  | c :: rest => c :: unescape rest

/-- The contents of a string token: its text without a quote at either end,
unescaped. -/
def ofStringChars (cs : List Char) : List Char :=
  let inner := match cs with
    | '"' :: rest => rest
    | _ => cs
  unescape (if inner.getLast? = some '"' then inner.dropLast else inner)

/-- A text that may be a number starts with a digit, behind at most a sign and
a point. -/
def looksNumeric (cs : List Char) : Bool :=
  let body := (splitSign cs).2
  let body := match body with
    | '.' :: rest => rest
    | _ => body
  match body with
  | c :: _ => c.isDigit
  | [] => false

/-- The exponent marks of the Lisp float formats become the common one. -/
def commonExponentMark (c : Char) : Char :=
  if ['d', 'D', 'f', 'F', 's', 'S', 'l', 'L'].contains c then 'e' else c

/-- The number a text writes, with a Lisp exponent mark if it has one. -/
def lispFloat? (cs : List Char) : Option Double :=
  if looksNumeric cs then doubleOfChars? (cs.map commonExponentMark) else none

/-- The value of a token that is no string. -/
def ofWord (word : String) : Value :=
  let cs := word.toList
  if Text.sameLetters word "nil" then nil
  else if Text.sameLetters word "t" then t
  else match cs with
    | ':' :: c :: rest => keyword (String.ofList (c :: rest))
    | _ =>
      match int64OfChars? cs with
      | some n => int n
      | none =>
        match lispFloat? cs with
        | some x => float x
        | none => symbol word

/-- The value of an atom. -/
def ofAtom (a : Atom) : Value :=
  match a.kind with
  | .string | .unclosedString => str (String.ofList (ofStringChars a.text.toList))
  | _ => ofWord a.text

mutual

/-- The value of an expression. -/
def ofSexp : Sexp → Value
  | .atom a => ofAtom a
  | .list _ _ [] => nil
  | .list _ _ (e :: es) => list (ofSexp e :: ofSexps es)

/-- The values of several expressions. -/
def ofSexps : List Sexp → List Value
  | [] => []
  | e :: es => ofSexp e :: ofSexps es

end

/-- The value of the first expression in a text, if it has one. -/
def ofText? (text : String) : Option Value :=
  (parse text).head?.map ofSexp

end LispLink.Value
