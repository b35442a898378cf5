/-
  LispLink.Value.Written
  ────────────────────────────────
  **VALUES AS LISP TEXT.**

  The text of a value is what a Lisp reader turns back into it.  Strings are
  escaped; symbols and keywords are written as they are, so a name with
  delimiters in it would not read back.

      encode v  =  the text of v
-/
import LispLink.Value.Basic

namespace LispLink.Value

open Number

/-- A character inside a string: the quote and the backslash are escaped. -/
def escape (c : Char) : List Char :=
  if c = '"' ∨ c = '\\' then ['\\', c] else [c]

/-- A string in its quotes. -/
def quoteString (s : List Char) : List Char :=
  '"' :: (s.flatMap escape ++ ['"'])

/-- An integer in decimal. -/
def intChars (n : Int) : List Char :=
  (if n < 0 then ['-'] else []) ++ Nat.toDigits 10 n.natAbs

mutual

/-- The characters of a value. -/
def chars : Value → List Char
  | nil => ['n', 'i', 'l']
  | t => ['t']
  | int n => intChars n.toInt
  | float x => FloatFormat.lisp.write x
  | str s => quoteString s.toList
  | symbol s => s.toList
  | keyword k => ':' :: k.toList
  | list items => '(' :: (itemsChars items ++ [')'])
  | record fields => '(' :: (fieldsChars fields ++ [')'])

/-- The characters of several values, with a blank between two. -/
def itemsChars : List Value → List Char
  | [] => []
  | [v] => chars v
  | v :: w :: rest => chars v ++ ' ' :: itemsChars (w :: rest)

/-- The characters of several fields, with a blank between two. -/
def fieldsChars : List (String × Value) → List Char
  | [] => []
  | [(k, v)] => ':' :: (k.toList ++ ' ' :: chars v)
  | (k, v) :: f :: rest => ':' :: (k.toList ++ ' ' :: (chars v ++ ' ' :: fieldsChars (f :: rest)))

end

/-- The text of a value. -/
def encode (v : Value) : String := String.ofList v.chars

end LispLink.Value
