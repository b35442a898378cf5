/-
  LispLink.Session.Connect
  ────────────────────────────────
  **OPENING A SESSION.**

  A session is opened by asking the image about itself.  If that fails the
  attempt failed, and after a delay that doubles each time another may follow.
  The image is given by what it does: for each connection that it accepts, what
  it does in answer to each request.
-/
import LispLink.Config
import LispLink.Session.Command

namespace LispLink.Session

open Reply Wire

/-- What the image does on one connection: in answer to the request of that
number, counted from zero, and id. -/
abbrev Script := Nat → UInt64 → Burst

/-- The connections that the image accepts, one after the other; then it is out
of reach. -/
abbrev Listener := List Script

/-- The payload of a frame that was written. -/
def payloadOf (framed : String) : String := String.ofList (framed.toList.drop headerLength)

/-- The payloads that a session has written. -/
def sent (s : Session) : List String := s.outbox.map payloadOf

/-- Run a command against a live image.  Without any time to wait no answer
arrives in time. -/
def callLive (s : Session) (c : Command α) (answer : UInt64 → Burst) :
    Except Error α × Session :=
  s.call c (if s.timeout = 0 then fun _ => {} else answer)

/-- Ask the image about itself on a fresh connection; close the connection if it
does not tell. -/
def greet (script : Script) : Except Error Session × Session :=
  match attached.callLive Command.connectionInfo (script 0) with
  | (.ok info, s) => let s := { s with info := some info }; (.ok s, s)
  | (.error e, s) => (.error e, s.close)

/-- How a series of attempts ended. -/
structure Connected where
  /-- The session and what the image will do on its connection. -/
  result : Except Error (Session × Script)
  /-- The time spent between attempts, in milliseconds. -/
  delay : Nat
  /-- The payloads that the image received on each connection, as far as the
  attempts failed. -/
  refused : List (List String)

/-- The image does not listen. -/
def outOfReach : Error := .ofNetwork .connectionRefused "Connection refused (os error 111)"

/-- The delay behind the attempt of that number, counted from zero: a tenth of a
second, doubled each time, up to ten times. -/
def retryDelay (attempt : Nat) : Nat := 100 * Nat.pow 2 (min attempt 10)

/-- Attempt to connect, and `retries` times again if that fails. -/
def connectRetrying (retries attempt : Nat) (listener : Listener) : Connected :=
  match listener with
  | [] => again outOfReach [] []
  | script :: rest =>
    match greet script with
    | (.ok s, _) => ⟨.ok (s, script), 0, []⟩
    | (.error e, s) => again e [s.sent] rest
where
  /-- Behind a failed attempt. -/
  again (e : Error) (received : List (List String)) (rest : Listener) : Connected :=
    match retries with
    | 0 => ⟨.error e, 0, received⟩
    | n + 1 =>
      let next := connectRetrying n (attempt + 1) rest
      { next with delay := retryDelay attempt + next.delay, refused := received ++ next.refused }

/-- Attempt to connect the given number of times, but at least once. -/
def connect (attempts : Nat) (listener : Listener) : Connected :=
  connectRetrying (attempts - 1) 0 listener

/-- Set what a configuration says about requests. -/
def configure (s : Session) (c : Config) : Session :=
  { s with timeout := c.timeoutMillis, package := c.defaultPackage }

/-- Connect as a configuration says. -/
def connectWith (c : Config) (listener : Listener) : Connected :=
  let run := connect c.connectAttempts.toNat listener
  { run with result := run.result.map fun (s, script) => (s.configure c, script) }

end LispLink.Session
