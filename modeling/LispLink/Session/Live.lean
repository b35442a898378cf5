/-
  LispLink.Session.Live
  ────────────────────────────────
  **A SESSION OVER THE NETWORK.**

  A live session is a session and the connection that it stands for.  All that
  happens here is input and output: bytes that arrive are given to the session,
  and frames that it has written go out.

      ask   dispatch a command, then pass bytes on until its outcome is there
            or its time is over
-/
import LispLink.Session.Connect
import Std.Async.DNS
import Std.Async.TCP
import Std.Async.Timer

namespace LispLink.Session

open Std.Async

/-- A session and its connection. -/
structure Live where
  client : TCP.Socket.Client
  session : Session

namespace Live

/-- The longest time to sleep without a look at the clock, in milliseconds. -/
def longestNap : Nat := 3600000

/-! ## §1. Bytes. -/

/-- Send the frames that the session has written. -/
def flush (l : Live) : Async Live := do
  for framed in l.session.outbox do
    l.client.send framed.toUTF8
  return { l with session := l.session.passOn }

/-- Take one read off the connection, if it comes within that many
milliseconds.  A connection that breaks ends the session. -/
def read (l : Live) (millis : Nat) : Async Live := do
  try
    let alarm ← Selector.sleep (.ofNat millis)
    let session ← Selectable.one #[
      .case (l.client.recvSelector readSize.toUInt64) fun bytes =>
        return match bytes with
          | some bytes => (l.session.receive bytes.toList).answerPings
          | none => l.session.endOfStream,
      .case alarm fun _ => return l.session]
    flush { l with session }
  catch e => return { l with session := l.session.shutDown (some (toString e)) }

/-- Read until a request is settled, or the clock shows the deadline. -/
partial def await (l : Live) (h : Handle) (deadline : Nat) : Async Live := do
  let now ← IO.monoMsNow
  if l.session.isSettled h || deadline ≤ now then return l
  (← l.read (min (deadline - now) longestNap)).await h deadline

/-! ## §2. Commands. -/

/-- Run a command in the package of the session. -/
def ask (l : Live) (c : Command α) : Async (Except Error α × Live) := do
  match l.session.dispatch c.form l.session.package c.thread with
  | (.error e, session) => return (c.read (.error e), { l with session })
  | (.ok h, session) =>
    try
      let l ← flush { l with session }
      let l ← l.await h ((← IO.monoMsNow) + h.timeout)
      return (c.read (l.session.outcome h), l)
    catch e => return (c.read (.error (.io (toString e))), { l with session })

/-- Hang up. -/
def close (l : Live) : Async Unit := do
  try l.client.shutdown catch _ => return

/-! ## §3. Connecting. -/

/-- The socket address of a port. -/
def socketAddress (port : UInt16) : Std.Net.IPAddr → Std.Net.SocketAddress
  | .v4 addr => .v4 { addr, port }
  | .v6 addr => .v6 { addr, port }

/-- Connect to the first of the addresses that accepts. -/
def reach : List Std.Net.SocketAddress → Async (Except Error TCP.Socket.Client)
  | [] => return .error (.connectionFailed "no address")
  | address :: rest => do
    try
      let client ← TCP.Socket.Client.mk
      client.connect address
      return .ok client
    catch e =>
      if rest.isEmpty then return .error (.connectionFailed (toString e)) else reach rest

/-- Connect to a host by its name. -/
def reachHost (host : String) (port : UInt16) : Async (Except Error TCP.Socket.Client) := do
  try
    let addresses ← DNS.getAddrInfo host (Nat.repr port.toNat)
    reach (addresses.toList.map (socketAddress port))
  catch e => return .error (.connectionFailed (toString e))

/-- Connect, and ask the image about itself. -/
def greet (host : String) (port : UInt16) : Async (Except Error Live) := do
  match ← reachHost host port with
  | .error e => return .error e
  | .ok client =>
    match ← ask ⟨client, attached⟩ Command.connectionInfo with
    | (.ok info, l) => return .ok { l with session := { l.session with info := some info } }
    | (.error e, l) => l.close; return .error e

/-- Connect, and `retries` times again if that fails, behind longer and longer
delays. -/
def connectRetrying (host : String) (port : UInt16) (retries attempt : Nat) :
    Async (Except Error Live) := do
  match ← greet host port, retries with
  | .ok l, _ => return .ok l
  | .error e, 0 => return .error e
  | .error _, n + 1 =>
    sleep (.ofNat (retryDelay attempt))
    connectRetrying host port n (attempt + 1)

/-- Connect as a configuration says. -/
def connect (c : Config) : Async (Except Error Live) := do
  match ← connectRetrying c.host c.port (c.connectAttempts.toNat - 1) 0 with
  | .ok l => return .ok { l with session := l.session.configure c }
  | .error e => return .error e

end Live

end LispLink.Session
