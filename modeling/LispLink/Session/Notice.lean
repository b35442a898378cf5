/-
  LispLink.Session.Notice
  ────────────────────────────────
  **WHAT SUBSCRIBERS OF A SESSION HEAR.**

  Messages from the image that concern more than one request, and the end of
  the session.  What a message contributes depends on the message alone.
-/
import LispLink.Wire.Incoming

namespace LispLink.Session

open Reply Wire

/-- A notice to the subscribers of a session. -/
inductive Notice where
  /-- An answer arrived. -/
  | answered (id : UInt64) (status : Status)
  | debuggerEntered (state : DebuggerState)
  | debuggerActivated (thread level : Int64)
  | debuggerLeft (thread level : Int64)
  | output (text : String)
  | packageChanged (name prompt : String)
  /-- The session is closed; nothing follows. -/
  | closed
  /-- The connection failed and is about to close. -/
  | failed (message : String)
  deriving DecidableEq, Repr

/-- The notice that a message of the image makes, if any: pings and complaints
about a request concern nobody else. -/
def Notice.ofIncoming? : Incoming → Option Notice
  | .answer id status _ => some (.answered id status)
  | .debuggerEntered state => some (.debuggerEntered state)
  | .debuggerActivated thread level => some (.debuggerActivated thread level)
  | .debuggerLeft thread level => some (.debuggerLeft thread level)
  | .output text => some (.output text)
  | .packageChanged name prompt => some (.packageChanged name prompt)
  | .ping .. | .invalidRequest .. => none

/-- How many notices wait for a subscriber before the oldest are lost. -/
def noticeCapacity : Nat := 256

/-- What a subscriber finds who comes back after the given notices: the number
of those lost, and the rest. -/
def backlog (notices : List Notice) : Nat × List Notice :=
  let lost := notices.length - noticeCapacity
  (lost, notices.drop lost)

end LispLink.Session
