/-
  LispLink.Reply.Compilation
  ────────────────────────────────
  **COMPILING A FILE.**

  The outcome of a compilation and the notes of the compiler.
-/
import LispLink.Text.Lower
import LispLink.Value.Basic

namespace LispLink.Reply

open Number

/-- A note of the compiler. -/
structure CompilerNote where
  message : String
  /-- The severity in lower case; a note without one is a mere note. -/
  severity : String
  file : Option String
  position : Option Int64
  deriving DecidableEq, Repr

namespace CompilerNote

/-- Where a note points. -/
structure Place where
  file : Option String
  position : Option Int64

/-- Take one part of a location into account: a later part of the same name
replaces an earlier one. -/
def Place.push (p : Place) (part : Value) : Place :=
  match part.elements with
  | [] => p
  | head :: rest =>
    if head.isKeyword "file" then { p with file := rest.head?.bind Value.text? }
    else if head.isKeyword "position" then { p with position := rest.head?.bind Value.int? }
    else p

/-- The severity of a note. -/
def severityOf (v : Value) : String :=
  match v.get? "severity" with
  | some (.keyword k) => Text.lower k
  | _ => "note"

/-- Read a note: it has a message at least. -/
def ofValue? (v : Value) : Option CompilerNote :=
  (v.textOf? "message").map fun message =>
    let parts := ((v.get? "location").map Value.elements).getD []
    let place := parts.foldl Place.push ⟨none, none⟩
    ⟨message, severityOf v, place.file, place.position⟩

end CompilerNote

/-- The outcome of compiling a file. -/
structure Compilation where
  notes : List CompilerNote
  success : Bool
  duration : Double
  loaded : Bool
  /-- The compiled file. -/
  fasl : Option String
  deriving DecidableEq, Repr

namespace Compilation

/-- Read an outcome: a list, perhaps with its name in front, of notes, success,
duration, whether it was loaded, and the compiled file.  Only the notes have to
be there. -/
def ofValue? (v : Value) : Option Compilation :=
  v.list?.bind fun items =>
    let fields := match items with
      | head :: rest => if head.isKeyword "compilation-result" then rest else items
      | [] => []
    match fields with
    | [] => none
    | notes :: rest =>
      some
        { notes := notes.elements.filterMap CompilerNote.ofValue?
          success := rest[0]?.any Value.isTrue
          duration := (rest[1]?.bind Value.float?).getD Double.zero
          loaded := rest[2]?.any Value.isTrue
          fasl := rest[3]?.bind Value.text? }

/-- Whether the compiler found an error. -/
def hasErrors (c : Compilation) : Bool := c.notes.any (·.severity = "error")

end Compilation

end LispLink.Reply
