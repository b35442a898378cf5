/-
  LispLink.Wire.Request
  ────────────────────────────────
  **MESSAGES TO THE LISP IMAGE.**

  A message is a value in a frame.  A request is the message

      (:emacs-rex form "package" thread id)

  whose id the answer will carry; ids are Lisp fixnums, so an id above the
  64-bit signed range cannot be sent.
-/
import LispLink.Value.Written
import LispLink.Wire.Frame

namespace LispLink.Wire

/-- The thread of the image that a request runs in. -/
inductive Thread where
  /-- Whichever the image likes. -/
  | any
  /-- The one that serves the listener. -/
  | repl
  | id (n : Int64)
  deriving DecidableEq, Repr

/-- A thread as it stands in a message. -/
def Thread.toValue : Thread → Value
  | any => .t
  | repl => .keyword "repl-thread"
  | id n => .int n

/-- A message in its frame. -/
def encodeMessage (message : Value) : Except EncodeError String :=
  frame message.encode

/-- The greatest id of a request. -/
def maxId : UInt64 := 0x7fffffffffffffff

/-- The message of a request. -/
def requestMessage (id : UInt64) (form : Value) (package : String) (thread : Thread) : Value :=
  .list [.keyword "emacs-rex", form, .str package, thread.toValue, .int (Int64.ofNat id.toNat)]

/-- A request in its frame. -/
def encodeRequest (id : UInt64) (form : Value) (package : String) (thread : Thread) :
    Except EncodeError String :=
  if maxId < id then .error (.idOutOfRange id)
  else encodeMessage (requestMessage id form package thread)

end LispLink.Wire
