/-
  LispLink.Wire.Frame
  ────────────────────────────────
  **FRAMES.**

  A frame is a header of six hexadecimal digits and a payload; the header
  counts the payload's bytes.  So no payload is longer than `maxPayload`.

      frame p  =  six digits of (bytes of p), then p
-/

namespace LispLink.Wire

/-- The number of bytes in a header. -/
def headerLength : Nat := 6

/-- The greatest length that a header can tell. -/
def maxPayload : Nat := 0xffffff

/-- Why a message cannot be sent. -/
inductive EncodeError where
  | payloadTooLarge (bytes : Nat)
  | idOutOfRange (id : UInt64)
  deriving DecidableEq, Repr

/-- The wording of an encode error. -/
def EncodeError.message : EncodeError → String
  | payloadTooLarge n =>
    "Payload of " ++ Nat.repr n ++ " bytes does not fit a 6-digit length header"
  | idOutOfRange id => "Request id " ++ Nat.repr id.toNat ++ " does not fit a Lisp fixnum"

/-- The last `width` hexadecimal digits of a number. -/
def hexDigits : Nat → Nat → List Char
  | 0, _ => []
  | width + 1, n => hexDigits width (n / 16) ++ [Nat.digitChar (n % 16)]

/-- The header of a payload of `n` bytes. -/
def header (n : Nat) : String := String.ofList (hexDigits headerLength n)

/-- A payload with its header. -/
def frame (payload : String) : Except EncodeError String :=
  if maxPayload < payload.utf8ByteSize then .error (.payloadTooLarge payload.utf8ByteSize)
  else .ok (header payload.utf8ByteSize ++ payload)

end LispLink.Wire
