/-
  LispLink.Json.Reading
  ────────────────────────────────
  **JSON THAT IS READ.**

  A strict reader: one value, nothing around it but blanks, no trailing commas,
  no leading zeros.  It yields the value as it is written: numbers keep their
  digits and strings their escapes, which are resolved only where the contents
  matter.  So a text that nobody looks at need not have contents.
-/
import LispLink.Number.Digits

namespace LispLink

/-- A JSON value as it is written. -/
inductive JsonText where
  /-- `null`, `true` or `false`. -/
  | word (w : String)
  | number (digits : List Char)
  /-- What stands between the quotes. -/
  | string (body : List Char)
  | array (items : List JsonText)
  | object (members : List (List Char × JsonText))

namespace JsonText

/-! ## §1. Pieces. -/

/-- The blanks of JSON. -/
def isBlank (c : Char) : Bool := c == ' ' || c == '\n' || c == '\r' || c == '\t'

/-- Skip blanks. -/
def skipBlanks (cs : List Char) : List Char := cs.dropWhile isBlank

/-- A hexadecimal digit of either case. -/
def isHexDigit (c : Char) : Bool :=
  c.isDigit || ('a' ≤ c && c ≤ 'f') || ('A' ≤ c && c ≤ 'F')

/-- The characters that may stand alone behind a backslash. -/
def simpleEscapes : List Char := ['"', '\\', '/', 'b', 'f', 'n', 'r', 't']

/-- Read up to the closing quote: the body, last character first, and the
rest. -/
def stringBody (acc : List Char) : List Char → Option (List Char × List Char)
  | '"' :: rest => some (acc.reverse, rest)
  | '\\' :: 'u' :: a :: b :: c :: d :: rest =>
    if isHexDigit a && isHexDigit b && isHexDigit c && isHexDigit d then
      stringBody (d :: c :: b :: a :: 'u' :: '\\' :: acc) rest
    else none
  | '\\' :: e :: rest =>
    if simpleEscapes.contains e then stringBody (e :: '\\' :: acc) rest else none
  | c :: rest => if c.toNat < 0x20 ∨ c = '\\' then none else stringBody (c :: acc) rest
  | [] => none

/-- Read one or more digits. -/
def digits1 (cs : List Char) : Option (List Char × List Char) :=
  match cs.takeWhile Char.isDigit with
  | [] => none
  | ds => some (ds, cs.dropWhile Char.isDigit)

/-- Read the integer part of a number: a zero alone or digits that start with
no zero. -/
def wholePart : List Char → Option (List Char × List Char)
  | '0' :: rest => some (['0'], rest)
  | cs => digits1 cs

/-- Read a fraction, if there is one. -/
def fractionPart : List Char → Option (List Char × List Char)
  | '.' :: cs => (digits1 cs).map fun (ds, rest) => ('.' :: ds, rest)
  | cs => some ([], cs)

/-- Read an exponent, if there is one. -/
def exponentPart : List Char → Option (List Char × List Char)
  | [] => some ([], [])
  | c :: cs =>
    if c = 'e' ∨ c = 'E' then
      match cs with
      | '+' :: cs => (digits1 cs).map fun (ds, rest) => (c :: '+' :: ds, rest)
      | '-' :: cs => (digits1 cs).map fun (ds, rest) => (c :: '-' :: ds, rest)
      | cs => (digits1 cs).map fun (ds, rest) => (c :: ds, rest)
    else some ([], c :: cs)

/-- Read a number. -/
def numberChars (cs : List Char) : Option (List Char × List Char) := do
  let (sign, cs) := match cs with
    | '-' :: cs => (['-'], cs)
    | cs => ([], cs)
  let (whole, cs) ← wholePart cs
  let (fraction, cs) ← fractionPart cs
  let (exponent, cs) ← exponentPart cs
  pure (sign ++ whole ++ fraction ++ exponent, cs)

/-! ## §2. Values. -/

mutual

/-- Read a value, blanks before it skipped.  The fuel bounds the number of
values that may begin. -/
def value : Nat → List Char → Option (JsonText × List Char)
  | 0, _ => none
  | fuel + 1, cs =>
    match skipBlanks cs with
    | 'n' :: 'u' :: 'l' :: 'l' :: rest => some (.word "null", rest)
    | 't' :: 'r' :: 'u' :: 'e' :: rest => some (.word "true", rest)
    | 'f' :: 'a' :: 'l' :: 's' :: 'e' :: rest => some (.word "false", rest)
    | '"' :: rest => (stringBody [] rest).map fun (body, rest) => (.string body, rest)
    | '[' :: rest =>
      match skipBlanks rest with
      | ']' :: rest => some (.array [], rest)
      | rest => (items fuel rest).map fun (found, rest) => (.array found, rest)
    | c :: rest =>
      if c.toNat = 0x7b then
        match skipBlanks rest with
        | [] => none
        | d :: more =>
          if d.toNat = 0x7d then some (.object [], more)
          else (members fuel (d :: more)).map fun (ms, rest) => (.object ms, rest)
      else (numberChars (c :: rest)).map fun (ds, rest) => (.number ds, rest)
    | [] => none

/-- Read the items of an array up to its bracket; there is at least one. -/
def items : Nat → List Char → Option (List JsonText × List Char)
  | 0, _ => none
  | fuel + 1, cs =>
    match value fuel cs with
    | none => none
    | some (j, rest) =>
      match skipBlanks rest with
      | ',' :: rest => (items fuel rest).map fun (found, rest) => (j :: found, rest)
      | ']' :: rest => some ([j], rest)
      | _ => none

/-- Read the members of an object up to its brace; there is at least one. -/
def members : Nat → List Char → Option (List (List Char × JsonText) × List Char)
  | 0, _ => none
  | fuel + 1, cs =>
    match skipBlanks cs with
    | '"' :: rest =>
      match stringBody [] rest with
      | none => none
      | some (key, rest) =>
        match skipBlanks rest with
        | ':' :: rest =>
          match value fuel rest with
          | none => none
          | some (j, rest) =>
            match skipBlanks rest with
            | ',' :: rest => (members fuel rest).map fun (ms, rest) => ((key, j) :: ms, rest)
            | c :: rest => if c.toNat = 0x7d then some ([(key, j)], rest) else none
            | [] => none
        | _ => none
    | _ => none

end

/-- Read a text that is one value.  Every value, item and member takes at least
one character, so twice the length is fuel enough. -/
def parse? (text : String) : Option JsonText :=
  let cs := text.toList
  match value (2 * cs.length + 2) cs with
  | some (j, rest) => if (skipBlanks rest).isEmpty then some j else none
  | none => none

/-! ## §3. Contents. -/

/-- The value of a hexadecimal digit. -/
def hexValue (c : Char) : Nat :=
  if c.isDigit then c.toNat - '0'.toNat
  else if 'a' ≤ c then c.toNat - 'a'.toNat + 10
  else c.toNat - 'A'.toNat + 10

/-- The value of four hexadecimal digits. -/
def hex4 (a b c d : Char) : Nat :=
  ((hexValue a * 16 + hexValue b) * 16 + hexValue c) * 16 + hexValue d

/-- The character that a letter behind a backslash stands for. -/
def simpleEscape (c : Char) : Char :=
  match c with
  | 'b' => '\x08'
  | 'f' => '\x0c'
  | 'n' => '\n'
  | 'r' => '\r'
  | 't' => '\t'
  | c => c

/-- Resolve the escapes of a string body.  Half a surrogate pair has no
contents. -/
def contents : List Char → Option (List Char)
  | '\\' :: 'u' :: a :: b :: c :: d :: rest =>
    let n := hex4 a b c d
    if n < 0xd800 ∨ 0xe000 ≤ n then (contents rest).map (Char.ofNat n :: ·)
    else if 0xdc00 ≤ n then none
    else match rest with
      | '\\' :: 'u' :: e :: f :: g :: h :: rest =>
        let m := hex4 e f g h
        if 0xdc00 ≤ m ∧ m < 0xe000 then
          (contents rest).map (Char.ofNat (0x10000 + (n - 0xd800) * 0x400 + (m - 0xdc00)) :: ·)
        else none
      | _ => none
  | '\\' :: c :: rest => (contents rest).map (simpleEscape c :: ·)
  | c :: rest => (contents rest).map (c :: ·)
  | [] => some []

/-- The contents of a string. -/
def text? : JsonText → Option String
  | string body => (contents body).map String.ofList
  | _ => none

/-- The natural number below `bound` that is written with digits alone. -/
def natBelow? (bound : Nat) : JsonText → Option Nat
  | number ds =>
    if ds.all Char.isDigit then some (Number.natOfDigits ds) |>.filter (· < bound) else none
  | _ => none

end JsonText

end LispLink
