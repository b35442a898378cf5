/-
  LispLink.Wire.Incoming
  ────────────────────────────────
  **MESSAGES FROM THE LISP IMAGE.**

  A message is a list whose first element is a keyword telling its kind, in any
  case.  A message of an unknown kind or with the wrong arguments is none.
-/
import LispLink.Reply.Debugger
import LispLink.Value.Reading
import LispLink.Value.Written

namespace LispLink.Wire

open Reply

/-- How a request came out. -/
inductive Status where
  | ok
  /-- With the reason that the image gives. -/
  | abort (reason : String)
  deriving DecidableEq, Repr

/-- A message from the image. -/
inductive Incoming where
  /-- The answer to the request of that id. -/
  | answer (id : UInt64) (status : Status) (payload : Value)
  | debuggerEntered (state : DebuggerState)
  | debuggerActivated (thread level : Int64)
  | debuggerLeft (thread level : Int64)
  | output (text : String)
  | packageChanged (name prompt : String)
  /-- To be answered with the same thread and tag. -/
  | ping (thread tag : Value)
  /-- The image could not read the request of that id. -/
  | invalidRequest (id : UInt64) (message : String)
  deriving Repr

namespace Incoming

/-- The id of a request: an integer that is not negative. -/
def requestId? (v : Value) : Option UInt64 :=
  v.int?.bind fun n => if 0 ≤ n then some n.toUInt64 else none

/-- Why a request was aborted: what the image gives as detail, or else the
status itself. -/
def abortReason (status : Value) (detail : Option Value) : String :=
  (detail.bind Value.text?).getD status.encode

/-- The status of an answer. -/
def statusOf (status : Value) (detail : Option Value) : Status :=
  if status.isKeyword "ok" then .ok else .abort (abortReason status detail)

/-- Read the answer to a request: `((status detail) id)`. -/
def answer? : List Value → Option Incoming
  | outcome :: id :: _ => do
    let id ← requestId? id
    match ← outcome.list? with
    | [] => none
    | status :: rest => pure (.answer id (statusOf status rest.head?) (rest.head?.getD .nil))
  | _ => none

/-- Read a thread and a level. -/
def threadLevel? : List Value → Option (Int64 × Int64)
  | thread :: level :: _ => do
    let thread ← thread.int?
    let level ← level.int?
    pure (thread, level)
  | _ => none

/-- Read the arguments of a message of the given kind, in lower case. -/
def ofArguments? (kind : String) (args : List Value) : Option Incoming :=
  match kind with
  | "return" => answer? args
  | "debug" => (DebuggerState.ofArguments? args).map debuggerEntered
  | "debug-activate" => (threadLevel? args).map fun (t, l) => debuggerActivated t l
  | "debug-return" => (threadLevel? args).map fun (t, l) => debuggerLeft t l
  | "write-string" => (args[0]?.bind Value.text?).map output
  | "new-package" =>
    (args[0]?.bind Value.text?).map fun name =>
      packageChanged name ((args[1]?.bind Value.text?).getD "")
  | "ping" =>
    match args with
    | thread :: tag :: _ => some (ping thread tag)
    | _ => none
  | "invalid-rpc" =>
    (args[0]?.bind requestId?).map fun id =>
      invalidRequest id ((args[1]?.bind Value.text?).getD "")
  | _ => none

/-- Read a message. -/
def ofValue? (v : Value) : Option Incoming :=
  match v.elements with
  | .keyword kind :: args => ofArguments? (String.ofList (Text.foldLetters kind)) args
  | _ => none

/-- Read the message in a payload, which is its first form. -/
def ofPayload? (payload : String) : Option Incoming := (Value.ofText? payload).bind ofValue?

end Incoming

end LispLink.Wire
