/-
  LispLink.Source.Sexp
  ────────────────────────────────
  **EXPRESSIONS.**

  An expression is an atom, which is one token, or a list of expressions
  between parens.  A list may play a role that an editor cares about: it
  defines a function or a package, switches the package, or binds local names.
  What the role names is kept with it; the bindings of a `let` are read off its
  second element.
-/
import LispLink.Source.Token
import LispLink.Text.AsciiCase

namespace LispLink.Source

/-! ## §1. Quoting. -/

/-- Whether an expression is data: under a quote, under a backquote. -/
structure Taint where
  quoted : Bool
  backquoted : Bool
  deriving DecidableEq, Repr

namespace Taint

/-- Code. -/
def none : Taint := ⟨false, false⟩

/-- The taint of what follows a prefix operator: quoting adds up, and a comma
leaves all quoting. -/
def under (t : Taint) : Kind → Taint
  | .quote => { t with quoted := true }
  | .backquote => { t with backquoted := true }
  | .comma => none
  | _ => t

/-- Whether the taint marks data. -/
def isData (t : Taint) : Bool := t.quoted || t.backquoted

end Taint

/-! ## §2. Expressions. -/

/-- A token as an expression: its place in the token list and its taint. -/
structure Atom where
  token : Token
  index : Nat
  taint : Taint
  deriving DecidableEq, Repr

namespace Atom

def kind (a : Atom) : Kind := a.token.kind

def text (a : Atom) : String := a.token.text

end Atom

/-- What is known of a list apart from its elements.  A list without its
closing paren stops where the last token of the text stops. -/
structure Outline where
  start : Position
  stop : Position
  closed : Bool
  taint : Taint
  deriving DecidableEq, Repr

/-- What a list does, as far as it is recognised. -/
inductive Role where
  | plain
  /-- `(defun name (params…) body…)`, or `defmacro`. -/
  | function (name : String) (params : List String) (isMacro : Bool)
  /-- `(defpackage name (:use …) (:export …))`. -/
  | package (name : String) (uses exports : List String)
  /-- `(in-package name)`. -/
  | inPackage (name : String)
  /-- `(let (bindings…) body…)`, or `let*`. -/
  | locals
  deriving DecidableEq, Repr

/-- An expression. -/
inductive Sexp where
  | atom (a : Atom)
  | list (outline : Outline) (role : Role) (elements : List Sexp)

namespace Sexp

/-- The elements of a list; an atom has none. -/
def elements : Sexp → List Sexp
  | atom _ => []
  | list _ _ es => es

/-- The atom, if the expression is one. -/
def atom? : Sexp → Option Atom
  | atom a => some a
  | list .. => none

/-- The elements, if the expression is a list. -/
def list? : Sexp → Option (List Sexp)
  | atom _ => none
  | list _ _ es => some es

def start : Sexp → Position
  | atom a => a.token.start
  | list o _ _ => o.start

def stop : Sexp → Position
  | atom a => a.token.stop
  | list o _ _ => o.stop

def taint : Sexp → Taint
  | atom a => a.taint
  | list o _ _ => o.taint

/-- The first element, if it is an atom. -/
def head? (e : Sexp) : Option Atom := e.elements.head?.bind atom?

/-! ## §3. Local bindings. -/

/-- A name bound by a `let`, with the expression it is bound to, if any. -/
structure Binding where
  name : Atom
  value : Option Sexp

/-- The binding that one entry of a binding list makes: a bare name, or a list
of a name and perhaps a value.  An entry that starts with no name makes none. -/
def Binding.ofEntry? : Sexp → Option Binding
  | atom a => some ⟨a, none⟩
  | list _ _ es => (es.head?.bind atom?).map fun a => ⟨a, es[1]?⟩

/-- The bindings that a binding list makes. -/
def Binding.ofEntries (entries : List Sexp) : List Binding :=
  entries.filterMap Binding.ofEntry?

/-- The bindings of a `let`, and none for any other expression. -/
def bindings : Sexp → List Binding
  | list _ .locals (_ :: entries :: _) => Binding.ofEntries entries.elements
  | _ => []

/-- The value bound to `name` by a `let`: of the first binding of that name,
whatever the case of its ASCII letters. -/
def binding? (e : Sexp) (name : String) : Option Sexp :=
  (e.bindings.find? fun b => Text.sameLetters b.name.text name).bind Binding.value

end Sexp

end LispLink.Source
