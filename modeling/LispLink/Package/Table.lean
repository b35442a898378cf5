/-
  LispLink.Package.Table
  ────────────────────────────────
  **PACKAGES ACROSS FILES.**

  The table holds the facts of the latest contents of every file, and the names
  of all packages that any contents ever named.  What is known of a package is
  the union of what the files say.

      facts (update t file forms) file  =  FileFacts.ofForms forms
-/
import LispLink.Package.FileFacts
import LispLink.Package.FileId

namespace LispLink.Package

open Source

/-- The packages of a set of files. -/
structure Table where
  /-- The packages other than the default one that were ever named. -/
  named : List String
  /-- The facts of the latest contents of each file. -/
  files : List (FileId × FileFacts)

namespace Table

/-- No files. -/
def empty : Table := ⟨[], []⟩

/-- Replace whatever a file said by what its forms say. -/
def update (t : Table) (file : FileId) (forms : List Sexp) : Table where
  named :=
    insertNames ((forms.filterMap FileFacts.packageOf?).filter (· ≠ defaultPackage)) t.named
  files := (file, FileFacts.ofForms forms) :: t.files.filter (·.1 ≠ file)

/-- What the latest contents of a file say. -/
def facts (t : Table) (file : FileId) : FileFacts := (t.files.lookup file).getD .empty

/-- Every package: the default one, then the others by name. -/
def packages (t : Table) : List String := defaultPackage :: t.named

/-- Whether a package is known. -/
def knows (t : Table) (name : String) : Bool := t.packages.contains name

/-- The exports of a package, over all files. -/
def exports (t : Table) (name : String) : List String :=
  nameSet (t.files.flatMap fun (_, f) => f.exportsOf name)

/-- The packages that a package uses, over all files. -/
def uses (t : Table) (name : String) : List String :=
  nameSet (t.files.flatMap fun (_, f) => f.usesOf name)

/-- The names defined in a package, over all files. -/
def defined (t : Table) (name : String) : List String :=
  nameSet (t.files.flatMap fun (_, f) => f.definedIn name)

/-- The lines of a file that a package owns. -/
def range? (t : Table) (file : FileId) (name : String) : Option LineRange :=
  (t.facts file).range? name

/-- The packages that own a line of a file. -/
def owners (t : Table) (file : FileId) (line : Nat) : List String :=
  t.packages.filter fun name => (t.range? file name).any (·.contains line)

/-- The package that is current on a line of a file: the one that owns it, or
the default package. -/
def resolve (t : Table) (file : FileId) (line : Nat) : String :=
  (t.owners file line).head?.getD defaultPackage

/-- The names that the exports of a package add where `active` is current: bare
if `active` uses it, and with the package before a colon if not. -/
def exportedTo (t : Table) (active name : String) : List String :=
  if (t.uses active).contains name then t.exports name
  else (t.exports name).map fun s => name ++ ":" ++ s

/-- The names that can be written on a line of a file: what the current package
defines and exports, and what the others export. -/
def visible (t : Table) (file : FileId) (line : Nat) : List String :=
  let active := t.resolve file line
  nameSet (t.defined active ++ t.exports active
    ++ (t.packages.filter (· ≠ active)).flatMap (t.exportedTo active))

end Table

end LispLink.Package
