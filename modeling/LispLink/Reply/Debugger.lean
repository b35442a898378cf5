/-
  LispLink.Reply.Debugger
  ────────────────────────────────
  **THE DEBUGGER.**

  What an image says when a thread of it enters the debugger: the condition,
  the ways out of it, and the call stack.  Entries of a list that have the
  wrong shape are left out.
-/
import LispLink.Value.Basic

namespace LispLink.Reply

/-- A way out of the debugger. -/
structure Restart where
  name : String
  description : String
  deriving DecidableEq, Repr

/-- Read a restart: a name and perhaps a description. -/
def Restart.ofValue? (v : Value) : Option Restart :=
  match v.elements with
  | [] => none
  | name :: rest =>
    name.text?.map fun name => ⟨name, (rest.head?.bind Value.text?).getD ""⟩

/-- A frame of the call stack. -/
structure StackFrame where
  index : Int64
  description : String
  restartable : Bool
  deriving DecidableEq, Repr

/-- Read a frame: index, description and perhaps properties. -/
def StackFrame.ofValue? (v : Value) : Option StackFrame :=
  match v.elements with
  | index :: description :: rest => do
    let index ← index.int?
    let description ← description.text?
    let restartable := (rest.head?.bind (·.get? "restartable")).any Value.isTrue
    pure ⟨index, description, restartable⟩
  | _ => none

/-- Read a list of frames. -/
def StackFrame.listOfValue (v : Value) : List StackFrame := v.elements.filterMap ofValue?

/-- A thread in the debugger. -/
structure DebuggerState where
  thread : Int64
  level : Int64
  /-- The text of the condition, then of its type. -/
  condition : List String
  restarts : List Restart
  frames : List StackFrame
  continuations : List Int64
  deriving DecidableEq, Repr

/-- Read the arguments of a debugger message: thread, level, condition, and
perhaps restarts, frames and continuations. -/
def DebuggerState.ofArguments? : List Value → Option DebuggerState
  | thread :: level :: condition :: rest => do
    let condition ← condition.list?
    let thread ← thread.int?
    let level ← level.int?
    pure
      { thread, level
        condition := condition.filterMap Value.text?
        restarts := ((rest[0]?.map Value.elements).getD []).filterMap Restart.ofValue?
        frames := (rest[1]?.map StackFrame.listOfValue).getD []
        continuations := ((rest[2]?.map Value.elements).getD []).filterMap Value.int? }
  | _ => none

/-- A local variable of a stack frame. -/
structure FrameLocal where
  name : String
  id : Int64
  value : String
  deriving DecidableEq, Repr

/-- Read a local variable: it has a name at least. -/
def FrameLocal.ofValue? (v : Value) : Option FrameLocal :=
  (v.textOf? "name").map fun name =>
    ⟨name, ((v.get? "id").bind Value.int?).getD 0, (v.textOf? "value").getD ""⟩

end LispLink.Reply
