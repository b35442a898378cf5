/-
  LispLink.Source.Recognition
  ────────────────────────────────
  **WHAT A LIST DOES.**

  A list that is not data is recognised by its head.  Recognition looks at the
  elements only: it finds the role of the list and the marks it puts on atoms
  below it, that is, the kinds by which names show as names.
-/
import LispLink.Source.Designator
import LispLink.Source.Sexp

namespace LispLink.Source

/-- A resolved kind for the token at an index. -/
structure Mark where
  index : Nat
  kind : Kind
  deriving DecidableEq, Repr

/-- A role and the marks that come with it, in the order they are made. -/
structure Recognition where
  role : Role
  marks : List Mark
  deriving DecidableEq, Repr

namespace Recognition

/-- Nothing special. -/
def plain : Recognition := ⟨.plain, []⟩

/-- A plain list whose atom `a` names a function. -/
def naming (a : Atom) : Recognition := ⟨.plain, [⟨a.index, .functionName⟩]⟩

/-- The atom that an entry of a parameter list names: the entry itself, or the
first element of a list. -/
def entryName? : Sexp → Option Atom
  | .atom a => some a
  | e => e.head?

/-- The parameters of a parameter list: its names but for the markers. -/
def parameters (entries : List Sexp) : List Atom :=
  (entries.filterMap entryName?).filter (·.kind ≠ .lambdaListMarker)

/-- A function or macro definition has a name; its parameters are those of the
list behind the name, if a list stands there. -/
def function (isMacro : Bool) (elements : List Sexp) : Recognition :=
  match elements[1]?.bind Sexp.atom? with
  | none => plain
  | some name =>
    let params := parameters ((elements[2]?.bind Sexp.list?).getD [])
    ⟨.function name.text (params.map Atom.text) isMacro,
      ⟨name.index, .functionName⟩ :: params.map (⟨·.index, .parameter⟩)⟩

/-- A definition of which only the name is marked. -/
def named (elements : List Sexp) : Recognition :=
  match elements[1]?.bind Sexp.atom? with
  | none => plain
  | some name => naming name

/-- The designators listed under the option `key` of a package definition: in
every option whose first atom designates `key`, the atoms behind that one. -/
def optionValues (key : String) (options : List Sexp) : List String :=
  options.flatMap fun option =>
    match option.elements.filterMap Sexp.atom? with
    | [] => []
    | k :: values =>
      if Text.upper (designated k.text) = key then values.map Atom.text else []

/-- A package definition has a name; uses are package names, exports are kept
as they are written. -/
def package (elements : List Sexp) : Recognition :=
  match elements[1]?.bind Sexp.atom? with
  | none => plain
  | some name =>
    let options := elements.drop 2
    ⟨.package (packageName name.text) ((optionValues "USE" options).map packageName)
      ((optionValues "EXPORT" options).map designated), []⟩

/-- A package switch has a name. -/
def inPackage (elements : List Sexp) : Recognition :=
  match elements[1]?.bind Sexp.atom? with
  | none => plain
  | some name => ⟨.inPackage (packageName name.text), []⟩

/-- A `let` has a binding list; the names bound there are local. -/
def locals (elements : List Sexp) : Recognition :=
  match elements[1]?.bind Sexp.list? with
  | none => plain
  | some entries =>
    ⟨.locals, (Sexp.Binding.ofEntries entries).map (⟨·.name.index, .localName⟩)⟩

/-- Recognise a list with head `a`. -/
def ofHead (a : Atom) (elements : List Sexp) : Recognition :=
  match a.kind with
  | .functionDefiner => function false elements
  | .macroDefiner => function true elements
  | .methodDefiner | .conditionDefiner | .classDefiner => named elements
  | .packageDefiner => package elements
  | .inPackage => inPackage elements
  | .localBinding => locals elements
  | .identifier => naming a
  | .symbol => if a.text.toList.head? = some ':' then plain else naming a
  | _ => plain

/-- Recognise a list: data is never more than a plain list, and neither is a
list that starts with no atom. -/
def ofList (taint : Taint) (elements : List Sexp) : Recognition :=
  if taint.isData then plain
  else match elements.head?.bind Sexp.atom? with
    | none => plain
    | some a => ofHead a elements

end Recognition

end LispLink.Source
