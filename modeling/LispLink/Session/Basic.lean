/-
  LispLink.Session.Basic
  ────────────────────────────────
  **A SESSION WITH A LISP IMAGE.**

  A session sends requests under increasing ids and files every answer under
  the id it carries, so that requests may be answered in any order.  It is a
  state machine; each operation and each read is one step:

      dispatch       an id, a place in the pending table, a frame in the outbox
      receive        the frames that a read completes, each handled in turn
      answerPings    what the pings of the reads at hand are owed
      endOfStream    the image hangs up
      close          the editor hangs up

  The answers to pings go out only when all that has arrived is handled, so that
  reading never waits for writing; if the session ends before that they are
  lost.

  A pending request leaves the table when its outcome reaches the mailbox.
  Shutting down gives every pending request the outcome that the connection is
  closed, tells the subscribers, and is final.
-/
import LispLink.Reply.Info
import LispLink.Session.Error
import LispLink.Session.Notice
import LispLink.Source.Designator
import LispLink.Wire.Request

namespace LispLink

open Reply Wire

namespace Session

/-- The outcome of a request. -/
abbrev Outcome := Except Error Value

instance (o : Outcome) (e : Error) : Decidable (o = .error e) :=
  match o with
  | .error e' => decidable_of_iff (e' = e) ⟨congrArg _, Except.error.inj⟩
  | .ok _ => isFalse nofun

instance (o : Outcome) (name : String) : Decidable (o = .ok (.keyword name)) :=
  match o with
  | .ok (.keyword s) =>
    decidable_of_iff (s = name) ⟨fun h => h ▸ rfl, fun h => Value.keyword.inj (Except.ok.inj h)⟩
  | .ok .nil | .ok .t | .ok (.int _) | .ok (.float _) | .ok (.str _) | .ok (.symbol _)
  | .ok (.list _) | .ok (.record _) | .error _ => isFalse nofun

/-- How long a request waits for its answer unless told otherwise, in
milliseconds. -/
def defaultTimeout : Nat := 30000

/-- The most bytes that one read takes off the connection. -/
def readSize : Nat := 8192

end Session

/-- The state of a session. -/
structure Session where
  /-- The frames of the connection's incoming bytes. -/
  frames : FrameReader
  /-- Whether the connection can still be written to. -/
  writable : Bool
  closed : Bool
  nextId : UInt64
  /-- The requests without an outcome, in the order they were sent. -/
  pending : List UInt64
  /-- The outcomes that have arrived. -/
  mailbox : List (UInt64 × Session.Outcome)
  /-- The frames written, in order. -/
  outbox : List String
  /-- The answers to pings that are not written yet, in order. -/
  owed : List String
  /-- The notices given, in order. -/
  notices : List Session.Notice
  /-- How long a request waits for its answer, in milliseconds. -/
  timeout : Nat
  /-- The package that requests are evaluated in. -/
  package : String
  /-- What the image said about itself when the session was opened. -/
  info : Option ConnectionInfo

namespace Session

/-- A session on a fresh connection. -/
def attached : Session where
  frames := .new
  writable := true
  closed := false
  nextId := 1
  pending := []
  mailbox := []
  outbox := []
  owed := []
  notices := []
  timeout := defaultTimeout
  package := Source.defaultPackage
  info := none

/-! ## §1. Sending. -/

/-- A request that has been sent: its id, and how long it waits. -/
structure Handle where
  id : UInt64
  timeout : Nat
  deriving DecidableEq, Repr

/-- Write a frame. -/
def write (s : Session) (framed : String) : Except Error Session :=
  if s.writable then .ok { s with outbox := s.outbox ++ [framed] } else .error .closed

/-- Send a request.  An open session spends an id on it even if it cannot be
encoded; only a request that has been written stays pending. -/
def dispatch (s : Session) (form : Value) (package : String) (thread : Thread) :
    Except Error Handle × Session :=
  if s.closed then (.error .closed, s)
  else
    let id := s.nextId
    let s := { s with nextId := id + 1 }
    match encodeRequest id form package thread with
    | .error e => (.error (.encode e), s)
    | .ok framed =>
      let registered := { s with pending := s.pending ++ [id] }
      match registered.write framed with
      | .ok s => (.ok ⟨id, s.timeout⟩, s)
      | .error e => (.error e, { registered with pending := registered.pending.erase id })

/-- Send a message that has no answer. -/
def sendMessage (s : Session) (message : Value) : Except Error Unit × Session :=
  if s.closed then (.error .closed, s)
  else match encodeMessage message with
    | .error e => (.error (.encode e), s)
    | .ok framed =>
      match s.write framed with
      | .ok s => (.ok (), s)
      | .error e => (.error e, s)

/-- Interrupt what a thread is doing. -/
def interrupt (s : Session) (thread : Thread) : Except Error Unit × Session :=
  s.sendMessage (.list [.keyword "emacs-interrupt", thread.toValue])

/-- Whether something has arrived for a request. -/
def isSettled (s : Session) (h : Handle) : Bool := (s.mailbox.lookup h.id).isSome

/-- The outcome of a request: what has arrived for it, or else that it took too
long. -/
def outcome (s : Session) (h : Handle) : Outcome :=
  (s.mailbox.lookup h.id).getD (.error (.timeout h.timeout))

/-! ## §2. Receiving. -/

/-- File the outcome of a request.  An id that is not pending changes
nothing. -/
def resolve (s : Session) (id : UInt64) (outcome : Outcome) : Session :=
  if id ∈ s.pending then
    { s with pending := s.pending.erase id, mailbox := s.mailbox ++ [(id, outcome)] }
  else s

/-- Owe the answer to a ping, if it fits a frame. -/
def pong (s : Session) (thread tag : Value) : Session :=
  match encodeMessage (.list [.keyword "emacs-pong", thread, tag]) with
  | .error _ => s
  | .ok framed => { s with owed := s.owed ++ [framed] }

/-- Write the answers that pings are owed, if the connection can still be written
to; otherwise nobody waits for them any more. -/
def answerPings (s : Session) : Session :=
  { s with owed := [], outbox := if s.writable then s.outbox ++ s.owed else s.outbox }

/-- Give the subscribers a notice. -/
def notify (s : Session) (n : Option Notice) : Session :=
  { s with notices := s.notices ++ n.toList }

/-- The outcome that the status and the payload of an answer make. -/
def outcomeOf (status : Status) (payload : Value) : Outcome :=
  match status with
  | .ok => .ok payload
  | .abort reason => .error (.aborted reason)

/-- What a message does to the requests and to the connection. -/
def settle (s : Session) : Incoming → Session
  | .answer id status payload => s.resolve id (outcomeOf status payload)
  | .invalidRequest id message => s.resolve id (.error (.invalidRequest message))
  | .ping thread tag => s.pong thread tag
  | _ => s

/-- Handle the payload of a frame.  One that holds no known message is
dropped. -/
def handle (s : Session) (payload : String) : Session :=
  match Incoming.ofPayload? payload with
  | none => s
  | some m => (s.settle m).notify (Notice.ofIncoming? m)

/-! ## §3. Shutting down. -/

/-- Shut the session down, once: pending requests learn that the connection is
closed, and the subscribers hear of the failure, if there was one, and of the
end. -/
def shutDown (s : Session) (failure : Option String) : Session :=
  let s := { s with writable := false }
  if s.closed then s
  else
    { s with
      closed := true
      pending := []
      mailbox := s.mailbox ++ s.pending.map (·, .error .closed)
      notices := s.notices ++ (failure.map Notice.failed).toList ++ [.closed] }

/-- The editor hangs up. -/
def close (s : Session) : Session := s.shutDown none

/-- The image hangs up. -/
def endOfStream (s : Session) : Session := if s.closed then s else s.shutDown none

/-! ## §4. Reading the connection. -/

/-- Handle complete payloads, up to the first that is no text: that one ends
the session. -/
def handleAll (s : Session) : List (List UInt8) → Session
  | [] => s
  | bytes :: rest =>
    match Text.ofUtf8? bytes with
    | some payload => (s.handle payload).handleAll rest
    | none => s.shutDown (some FrameError.invalidUtf8.message)

/-- Take the bytes of one read.  If they hold an invalid header the session
ends, and the frames that they completed before it are lost; otherwise the
complete frames are handled in order.  A closed session reads no more. -/
def receive (s : Session) (bytes : List UInt8) : Session :=
  if s.closed then s
  else match s.frames.feed bytes with
    | (.error e, frames) => { s with frames }.shutDown (some e.message)
    | (.ok _, frames) =>
      { s with frames := { frames with complete := [] } }.handleAll frames.complete

/-- Cut bytes into pieces of at most `n + 1`. -/
def pieces (n : Nat) (bytes : List UInt8) : List (List UInt8) :=
  match bytes with
  | [] => []
  | b :: bs => (b :: bs.take n) :: pieces n (bs.drop n)
termination_by bytes.length
decreasing_by simp only [List.length_drop, List.length_cons]; omega

/-- Take bytes that arrive at once, in as many reads as that needs. -/
def deliver (s : Session) (bytes : List UInt8) : Session :=
  (pieces (readSize - 1) bytes).foldl receive s

/-- Empty the outbox and the notices, once they have been passed on. -/
def passOn (s : Session) : Session := { s with outbox := [], notices := [] }

end Session

end LispLink
