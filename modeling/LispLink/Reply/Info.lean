/-
  LispLink.Reply.Info
  ────────────────────────────────
  **ANSWERS ABOUT THE IMAGE.**

  What a Lisp image says about itself, and the completions it offers.  A value
  of the wrong shape is no answer; a field that is missing or of the wrong type
  is left out.
-/
import LispLink.Value.Basic

namespace LispLink.Reply

/-- The texts in a list: strings and symbols as they are, keywords with their
colon, anything else left out. -/
def texts (v : Value) : List String :=
  v.elements.filterMap fun
    | .keyword k => some (":" ++ k)
    | item => item.text?

/-- What an image says about itself. -/
structure ConnectionInfo where
  pid : Option Int64
  /-- The type of the Lisp implementation. -/
  implementation : Option String
  implementationVersion : Option String
  /-- The version of the protocol. -/
  version : Option String
  package : Option String
  prompt : Option String
  features : List String
  deriving DecidableEq, Repr

/-- Read what an image says about itself: any list will do. -/
def ConnectionInfo.ofValue? (v : Value) : Option ConnectionInfo :=
  v.list?.map fun _ =>
    let implementation := v.get? "lisp-implementation"
    let package := v.get? "package"
    { pid := (v.get? "pid").bind Value.int?
      implementation := implementation.bind (·.textOf? "type")
      implementationVersion := implementation.bind (·.textOf? "version")
      version := v.textOf? "version"
      package := package.bind (·.textOf? "name")
      prompt := package.bind (·.textOf? "prompt")
      features := ((v.get? "features").map texts).getD [] }

/-- The completions of a prefix, and how far they agree. -/
structure Completions where
  candidates : List String
  common : String
  deriving DecidableEq, Repr

/-- Read completions: a list of candidates and the common part.  The empty list
offers none. -/
def Completions.ofValue? (v : Value) : Option Completions :=
  v.list?.map fun
    | [] => ⟨[], ""⟩
    | candidates :: rest => ⟨texts candidates, (rest.head?.bind Value.text?).getD ""⟩

end LispLink.Reply
