/-
  LispLink.Package.FileFacts
  ────────────────────────────────
  **WHAT ONE FILE SAYS ABOUT PACKAGES.**

  The top-level forms of a file are followed in order.  Package definitions
  declare exports and uses, a later one of the same package replacing the
  earlier; functions are defined in the package that is current; a switch of
  the package takes over the lines from its own on.

  A package has one range of lines in a file.  A switch cuts off every range
  that reaches its line, and gives its package the lines from there on in place
  of those it may have had before.
-/
import LispLink.Package.LineRange
import LispLink.Package.Names
import LispLink.Source.Designator
import LispLink.Source.Sexp

namespace LispLink.Package

open Source

/-- What a package definition declares, as written. -/
structure Declaration where
  exports : List String
  uses : List String
  deriving DecidableEq, Repr

/-- What a file says: declarations and line ranges by package, at most one of
each for a package, functions with the package they are defined in, and the
package that is current at the end. -/
structure FileFacts where
  current : String
  declarations : List (String × Declaration)
  ranges : List (String × LineRange)
  defined : List (String × String)
  deriving DecidableEq, Repr

/-- Bind a name anew in a list of pairs. -/
def rebind (name : String) (a : α) (pairs : List (String × α)) : List (String × α) :=
  (name, a) :: pairs.filter (·.1 ≠ name)

namespace FileFacts

/-- A file without forms. -/
def empty : FileFacts := ⟨defaultPackage, [], [], []⟩

/-- The ranges behind a switch to `target` at `line`. -/
def switchRanges (line : Nat) (target : String) (ranges : List (String × LineRange)) :
    List (String × LineRange) :=
  rebind target (.openFrom line)
    (ranges.filterMap fun (name, r) => (r.cutAt line).map (name, ·))

/-- Follow one top-level form. -/
def push (f : FileFacts) (form : Sexp) : FileFacts :=
  match form with
  | .list _ (.package name uses exports) _ =>
    { f with declarations := rebind name ⟨exports, uses⟩ f.declarations }
  | .list outline (.inPackage name) _ =>
    { f with ranges := switchRanges outline.start.line name f.ranges, current := name }
  | .list _ (.function name _ _) _ => { f with defined := (f.current, name) :: f.defined }
  | _ => f

/-- The facts of a file with the given top-level forms. -/
def ofForms (forms : List Sexp) : FileFacts := forms.foldl push empty

/-- The packages that a form names: the one it declares or switches to. -/
def packageOf? : Sexp → Option String
  | .list _ (.package name _ _) _ => some name
  | .list _ (.inPackage name) _ => some name
  | _ => none

/-- The exports that the file declares for a package. -/
def exportsOf (f : FileFacts) (name : String) : List String :=
  ((f.declarations.lookup name).map Declaration.exports).getD []

/-- The uses that the file declares for a package. -/
def usesOf (f : FileFacts) (name : String) : List String :=
  ((f.declarations.lookup name).map Declaration.uses).getD []

/-- The names that the file defines in a package. -/
def definedIn (f : FileFacts) (name : String) : List String :=
  (f.defined.filter (·.1 = name)).map Prod.snd

/-- The lines of the file that a package owns. -/
def range? (f : FileFacts) (name : String) : Option LineRange := f.ranges.lookup name

end FileFacts

end LispLink.Package
