/-
  LispLink.Package.FileId
  ────────────────────────────────
  **WHICH FILE.**

  A file goes by any text an editor likes, or by the `file` locator of its
  path: the components of the absolute path behind slashes, with every byte
  escaped that could not stand in a locator.
-/
import LispLink.Text.Utf8

namespace LispLink.Package

/-- The identity of a file. -/
structure FileId where
  text : String
  deriving DecidableEq, Repr

namespace FileId

/-- The printable bytes that are escaped: the blank, the double quote, `#`,
`%`, the angle brackets, the question mark, the backslash, the backquote and
the braces. -/
def escapedPrintables : List Nat :=
  [0x20, 0x22, 0x23, 0x25, 0x3c, 0x3e, 0x3f, 0x5c, 0x60, 0x7b, 0x7d]

/-- Whether a byte of a path component is escaped. -/
def isEscaped (b : Nat) : Bool := b < 0x20 || 0x7f ≤ b || escapedPrintables.contains b

/-- An upper-case hexadecimal digit. -/
def hexDigit (n : Nat) : Char := (Nat.digitChar (n % 16)).toUpper

/-- A byte of a path component in a locator. -/
def byteChars (byte : UInt8) : List Char :=
  let b := byte.toNat
  if isEscaped b then ['%', hexDigit (b / 16), hexDigit b] else [Char.ofNat b]

/-- The components of a path; a single dot is none. -/
def components (path : String) : List String :=
  ((path.toList.splitOn '/').map String.ofList).filter fun c => c ≠ "" && c ≠ "."

/-- The locator of a path, which is taken in `directory` if it is relative. -/
def ofPath (directory path : String) : FileId :=
  let whole := if path.toList.head? = some '/' then path else directory ++ "/" ++ path
  let parts := (components whole).map fun c => '/' :: (Text.utf8 c).flatMap byteChars
  ⟨"file://" ++ String.ofList (if parts.isEmpty then ['/'] else parts.flatten)⟩

end FileId

end LispLink.Package
