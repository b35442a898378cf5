/-
  LispLink.Source.Reading
  ────────────────────────────────
  **A TOKEN LIST AS EXPRESSIONS.**

  Reading never fails.  It is one pass over the tokens with a stack of the
  lists that are open; each token is classed as it passes, and recognising a
  list when it closes may put marks on tokens that passed before.

      read ts  =  ((Reading.begin).pushAll ts).finish …

  A close paren with no list open becomes an atom of its own and is marked as
  stray.  Lists still open at the end of the text stop where its last token
  stops, and the outermost of them is marked as unclosed.

  Nesting is cut at `maxDepth`: a list that opens inside that many others is
  read flat, so that parens in it are only counted and every other token but
  trivia is an atom of that one list.
-/
import LispLink.Source.Recognition

namespace LispLink.Source

/-- How many lists may enclose a list that is read as a tree. -/
def maxDepth : Nat := 256

/-- What reading finds out about a token: its kind and whether it is data. -/
structure TokenClass where
  kind : Kind
  taint : Taint
  deriving DecidableEq, Repr

/-- The expressions of a token list, and one class for each token. -/
structure ReadResult where
  forms : List Sexp
  classes : List TokenClass

/-! ## §1. Lists in progress. -/

/-- A list whose close paren has not been read.  Its elements so far are kept
last first. -/
structure OpenList where
  start : Position
  /-- The index of its open paren. -/
  index : Nat
  taint : Taint
  elements : List Sexp

/-- A list in progress that is read flat, with `inner` parens open inside. -/
structure FlatList where
  start : Position
  taint : Taint
  inner : Nat
  elements : List Sexp

/-- What a pass over a token list holds. -/
structure Reading where
  /-- The complete expressions outside any list, last first. -/
  forms : List Sexp
  /-- The open lists, innermost first. -/
  stack : List OpenList
  /-- The list that is read flat, inside all those on the stack. -/
  flat : Option FlatList
  /-- The taint that the next expression gets: that of the innermost open list,
  changed by the prefix operators since. -/
  next : Taint
  /-- The classes of the tokens read, so that their number is the index of the
  next token. -/
  classes : Array TokenClass

namespace Reading

/-- Nothing read yet. -/
def begin : Reading := ⟨[], [], none, .none, #[]⟩

/-- The taint of the innermost open list. -/
def enclosing (stack : List OpenList) : Taint :=
  match stack with
  | [] => .none
  | l :: _ => l.taint

/-- Put resolved kinds on tokens read before. -/
def mark (classes : Array TokenClass) (marks : List Mark) : Array TokenClass :=
  marks.foldl (fun cs m => cs.modify m.index ({ · with kind := m.kind })) classes

/-- Add a complete expression to the innermost open list, or to the forms. -/
def add (r : Reading) (e : Sexp) : Reading :=
  match r.stack with
  | [] => { r with forms := e :: r.forms, next := .none }
  | l :: ls => { r with stack := { l with elements := e :: l.elements } :: ls, next := l.taint }

/-- Close the innermost open list. -/
def close (r : Reading) (stop : Position) (closed : Bool) : Reading :=
  match r.stack with
  | [] => r
  | l :: ls =>
    let elements := l.elements.reverse
    let found := Recognition.ofList l.taint elements
    let classes :=
      if closed || !ls.isEmpty then r.classes
      else mark r.classes [⟨l.index, .unclosedParen⟩]
    { r with stack := ls, classes := mark classes found.marks }.add
      (.list ⟨l.start, stop, closed, l.taint⟩ found.role elements)

/-- Close the list that is read flat. -/
def closeFlat (r : Reading) (f : FlatList) (stop : Position) (closed : Bool) : Reading :=
  { r with flat := none }.add (.list ⟨f.start, stop, closed, f.taint⟩ .plain f.elements.reverse)

/-- The class of the next token. -/
def classed (r : Reading) (kind : Kind) (taint : Taint) : Reading :=
  { r with classes := r.classes.push ⟨kind, taint⟩ }

/-- Open a list with the taint of the next expression; `index` is that of its
open paren. -/
def openList (r : Reading) (start : Position) (index : Nat) : Reading :=
  if r.stack.length < maxDepth then
    { r with stack := ⟨start, index, r.next, []⟩ :: r.stack }
  else
    { r with flat := some ⟨start, r.next, 0, []⟩ }

/-! ## §2. One token. -/

/-- Read a token inside a list that is read flat. -/
def pushFlat (r : Reading) (f : FlatList) (t : Token) : Reading :=
  match t.kind with
  | .openParen =>
    { r.classed t.kind f.taint with flat := some { f with inner := f.inner + 1 } }
  | .closeParen =>
    let r := r.classed t.kind f.taint
    match f.inner with
    | 0 => r.closeFlat f t.stop true
    | n + 1 => { r with flat := some { f with inner := n } }
  | _ =>
    let a : Atom := ⟨t, r.classes.size, f.taint⟩
    { r.classed t.kind f.taint with flat := some { f with elements := .atom a :: f.elements } }

/-- Read a token that is no trivia, outside any flat list. -/
def pushTree (r : Reading) (t : Token) : Reading :=
  let index := r.classes.size
  let taint := r.next
  match t.kind with
  | .openParen => (r.classed t.kind taint).openList t.start index
  | .closeParen =>
    match r.stack with
    | [] => (r.classed .strayParen .none).add (.atom ⟨t, index, .none⟩)
    | l :: _ => (r.classed t.kind l.taint).close t.stop true
  | .quote | .backquote | .comma =>
    { r.classed t.kind taint with next := taint.under t.kind }
  | _ => (r.classed t.kind taint).add (.atom ⟨t, index, taint⟩)

/-- Read one token.  Trivia is classed as code and otherwise passed over. -/
def push (r : Reading) (t : Token) : Reading :=
  if t.kind.isTrivia then r.classed t.kind .none
  else match r.flat with
    | some f => r.pushFlat f t
    | none => r.pushTree t

/-- Read a token list. -/
def pushAll (r : Reading) (ts : List Token) : Reading :=
  ts.foldl push r

@[simp] theorem pushAll_nil (r : Reading) : r.pushAll [] = r := rfl

@[simp] theorem pushAll_cons (r : Reading) (t : Token) (ts : List Token) :
    r.pushAll (t :: ts) = (r.push t).pushAll ts := rfl

theorem pushAll_append (r : Reading) (as bs : List Token) :
    r.pushAll (as ++ bs) = (r.pushAll as).pushAll bs := by
  simp [pushAll]

/-! ## §3. The end of the text. -/

/-- Close every open list at the place where the text stops. -/
def closeAll (r : Reading) (stop : Position) : Reading :=
  let r := match r.flat with
    | some f => r.closeFlat f stop false
    | none => r
  r.stack.foldl (fun r _ => r.close stop false) r

/-- The result of a pass over a text that stops at `stop`. -/
def finish (r : Reading) (stop : Position) : ReadResult :=
  let r := r.closeAll stop
  ⟨r.forms.reverse, r.classes.toList⟩

end Reading

/-! ## §4. Reading a token list. -/

/-- Where a token list stops. -/
def stopOf (ts : List Token) : Position :=
  (ts.getLast?.map Token.stop).getD .origin

/-- Read a token list. -/
def read (ts : List Token) : ReadResult :=
  (Reading.begin.pushAll ts).finish (stopOf ts)

/-- The expressions of a text. -/
def parse (text : String) : List Sexp :=
  (read (tokenize text)).forms

end LispLink.Source
