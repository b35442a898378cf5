/-
  LispLink.Json.Basic
  ────────────────────────────────
  **JSON THAT IS WRITTEN.**

  Values on their way to an editor.  Objects keep the order of their members.
  There are two layouts: compact, without any blank, and indented by two
  blanks for people to read.
-/
import LispLink.Number.FloatText

namespace LispLink

open Number

/-- A JSON value. -/
inductive Json where
  | null
  | bool (b : Bool)
  | int (n : Int)
  | float (x : Double)
  | str (s : String)
  | array (items : List Json)
  | object (members : List (String × Json))
  deriving Repr

namespace Json

/-- A string, or null. -/
def optStr : Option String → Json
  | some s => str s
  | none => null

/-- An array of strings. -/
def strs (ss : List String) : Json := array (ss.map str)

/-- A hexadecimal digit. -/
def hexDigit (n : Nat) : Char := Nat.digitChar (n % 16)

/-- A character inside a string: the quote, the backslash and the controls are
escaped, by a letter if they have one. -/
def escape (c : Char) : List Char :=
  match c with
  | '"' => ['\\', '"']
  | '\\' => ['\\', '\\']
  | '\x08' => ['\\', 'b']
  | '\x0c' => ['\\', 'f']
  | '\n' => ['\\', 'n']
  | '\r' => ['\\', 'r']
  | '\t' => ['\\', 't']
  | c =>
    if c.toNat < 0x20 then
      ['\\', 'u', '0', '0', hexDigit (c.toNat / 16), hexDigit c.toNat]
    else [c]

/-- A string in its quotes. -/
def strChars (s : String) : List Char := '"' :: (s.toList.flatMap escape ++ ['"'])

/-- The characters of a value that has no parts. -/
def leafChars : Json → List Char
  | null => ['n', 'u', 'l', 'l']
  | bool true => ['t', 'r', 'u', 'e']
  | bool false => ['f', 'a', 'l', 's', 'e']
  | int n => (if n < 0 then ['-'] else []) ++ Nat.toDigits 10 n.natAbs
  | float x => FloatFormat.json.write x
  | str s => strChars s
  | array _ | object _ => []

/-- The braces of an object. -/
def openBrace : Char := Char.ofNat 0x7b

/-- The brace that closes an object. -/
def closeBrace : Char := Char.ofNat 0x7d

/-! ## §1. Compact. -/

mutual

/-- The characters of a value without blanks. -/
def compactChars : Json → List Char
  | array items => '[' :: (compactItems items ++ [']'])
  | object members => openBrace :: (compactMembers members ++ [closeBrace])
  | leaf => leaf.leafChars

/-- Values with commas between them. -/
def compactItems : List Json → List Char
  | [] => []
  | [j] => compactChars j
  | j :: k :: rest => compactChars j ++ ',' :: compactItems (k :: rest)

/-- Members with commas between them. -/
def compactMembers : List (String × Json) → List Char
  | [] => []
  | [(s, j)] => strChars s ++ ':' :: compactChars j
  | (s, j) :: m :: rest =>
    strChars s ++ ':' :: (compactChars j ++ ',' :: compactMembers (m :: rest))

end

/-- The compact text of a value. -/
def compact (j : Json) : String := String.ofList j.compactChars

/-! ## §2. Indented. -/

/-- The start of a line at nesting `depth`. -/
def newline (depth : Nat) : List Char := '\n' :: List.replicate (2 * depth) ' '

mutual

/-- The characters of a value at nesting `depth`, each item of an array and
each member of an object on a line of its own. -/
def prettyChars (depth : Nat) : Json → List Char
  | array [] => ['[', ']']
  | object [] => [openBrace, closeBrace]
  | array (j :: rest) => '[' :: (prettyItems (depth + 1) (j :: rest) ++ newline depth ++ [']'])
  | object (m :: rest) =>
    openBrace :: (prettyMembers (depth + 1) (m :: rest) ++ newline depth ++ [closeBrace])
  | leaf => leaf.leafChars

/-- Values on lines of their own. -/
def prettyItems (depth : Nat) : List Json → List Char
  | [] => []
  | [j] => newline depth ++ prettyChars depth j
  | j :: k :: rest => newline depth ++ (prettyChars depth j ++ ',' :: prettyItems depth (k :: rest))

/-- Members on lines of their own. -/
def prettyMembers (depth : Nat) : List (String × Json) → List Char
  | [] => []
  | [(s, j)] => newline depth ++ (strChars s ++ ':' :: ' ' :: prettyChars depth j)
  | (s, j) :: m :: rest =>
    newline depth
      ++ (strChars s ++ ':' :: ' '
        :: (prettyChars depth j ++ ',' :: prettyMembers depth (m :: rest)))

end

/-- The indented text of a value. -/
def pretty (j : Json) : String := String.ofList (j.prettyChars 0)

end Json

end LispLink
