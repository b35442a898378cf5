/-
  LispLink.Source.Designator
  ────────────────────────────────
  **NAMES AS THEY ARE WRITTEN IN PACKAGE FORMS.**

  A package or an export may be designated by a keyword, an uninterned symbol,
  a string or a plain symbol.  `designated` strips what marks the designator;
  `packageName` also brings the name to the one spelling under which a package
  is known.
-/
import LispLink.Text.Upper

namespace LispLink.Source

/-- The package that owns whatever no `in-package` form claims. -/
def defaultPackage : String := "CL-USER"

/-- The name in a designator: without a leading `#:` or colon, or without the
double quotes around it. -/
def designatedChars : List Char → List Char
  | '#' :: ':' :: rest => rest
  | ':' :: rest => rest
  | '"' :: rest => if rest.getLast? = some '"' then rest.dropLast else '"' :: rest
  | cs => cs

/-- The name in a designator. -/
def designated (designator : String) : String :=
  String.ofList (designatedChars designator.toList)

/-- The other names of the default package. -/
def defaultPackageNicknames : List String := ["CL", "COMMON-LISP", "COMMON-LISP-USER"]

/-- The canonical name of the designated package: upper case, with the standard
user and language packages folded into one. -/
def packageName (designator : String) : String :=
  let name := Text.upper (designated designator)
  if defaultPackageNicknames.contains name then defaultPackage else name

end LispLink.Source
