/-
  LispLink.Session.Error
  ────────────────────────────────
  **WHY AN OPERATION ON A SESSION FAILS.**
-/
import LispLink.Wire.FrameReader

namespace LispLink.Session

open Wire

/-- Why an operation on a session failed. -/
inductive Error where
  /-- The image could not be reached, for the given reason. -/
  | connectionFailed (reason : String)
  /-- No answer within that many milliseconds.  The request stays pending. -/
  | timeout (millis : Nat)
  /-- The image gave another status than success. -/
  | aborted (reason : String)
  /-- The image could not read the request. -/
  | invalidRequest (message : String)
  /-- The image broke the rules, or its answer has the wrong shape. -/
  | protocol (message : String)
  /-- The connection was closed before an answer arrived. -/
  | closed
  /-- The connection broke, for the given reason. -/
  | io (reason : String)
  | encode (e : EncodeError)
  deriving DecidableEq, Repr

namespace Error

/-- The wording of an error.  Timeouts are told in whole seconds. -/
def message : Error → String
  | connectionFailed reason => "Connection failed: " ++ reason
  | timeout millis => "Request timed out after " ++ Nat.repr (millis / 1000) ++ "s"
  | aborted reason => "Request aborted: " ++ reason
  | invalidRequest message => "Invalid RPC: " ++ message
  | protocol message => "Protocol error: " ++ message
  | closed => "Connection closed"
  | io reason => "I/O error: " ++ reason
  | encode e => e.message

/-- A stream of bad frames breaks the rules. -/
def ofFrame (e : FrameError) : Error := protocol e.message

/-- The ways in which the network can fail. -/
inductive NetworkFailure where
  | notFound
  | connectionRefused
  | other
  deriving DecidableEq, Repr

/-- A failure of the network: the image is out of reach if it is not there or
does not listen; else the connection broke. -/
def ofNetwork (failure : NetworkFailure) (reason : String) : Error :=
  match failure with
  | .notFound | .connectionRefused => connectionFailed reason
  | .other => io reason

end Error

end LispLink.Session
