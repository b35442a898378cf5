/-
  LispLink.Wire.FrameReader
  ────────────────────────────────
  **FRAMES OUT OF A STREAM OF BYTES.**

  Bytes arrive in chunks that need not end where frames do.  A frame reader
  takes them one at a time: it is in a header, in a payload, or poisoned by a
  header that is no number.  Complete payloads queue up until they are taken.

      feed r bs  =  push each byte of bs, up to the first error

  A poisoned reader takes no more bytes, but the payloads that were complete
  before can still be taken.
-/
import LispLink.Text.Quoted
import LispLink.Text.Utf8
import LispLink.Wire.Frame

namespace LispLink.Wire

/-- What can be wrong with a stream of frames. -/
inductive FrameError where
  /-- Six bytes that are not all hexadecimal digits, shown as text. -/
  | invalidHeader (header : String)
  /-- A complete payload that is not UTF-8. -/
  | invalidUtf8
  /-- More bytes behind an invalid header. -/
  | poisoned
  deriving DecidableEq, Repr

/-- The wording of a frame error. -/
def FrameError.message : FrameError → String
  | invalidHeader header => "Invalid frame header " ++ Text.quoted header
  | invalidUtf8 => "Frame payload is not valid UTF-8"
  | poisoned => "Frame stream is poisoned by an earlier error"

/-- Where a reader is in the stream.  Bytes of the frame in progress are kept
last first. -/
inductive Phase where
  /-- In a header, of which these bytes have arrived. -/
  | inHeader (bytes : List UInt8)
  /-- In a payload: the bytes that have arrived and how many are missing. -/
  | inPayload (bytes : List UInt8) (missing : Nat)
  /-- Behind an invalid header. -/
  | poisoned (bytes : List UInt8)
  deriving DecidableEq, Repr

/-- A reader: its place in the stream and the complete payloads, oldest
first. -/
structure FrameReader where
  phase : Phase
  complete : List (List UInt8)
  deriving DecidableEq, Repr

namespace FrameReader

/-- A reader at the start of a stream. -/
def new : FrameReader := ⟨.inHeader [], []⟩

/-! ## §1. Headers. -/

/-- The value of a byte that is a hexadecimal digit of either case. -/
def hexValue? (b : UInt8) : Option Nat :=
  let n := b.toNat
  if 48 ≤ n ∧ n ≤ 57 then some (n - 48)
  else if 97 ≤ n ∧ n ≤ 102 then some (n - 87)
  else if 65 ≤ n ∧ n ≤ 70 then some (n - 55)
  else none

/-- The number that the bytes write in hexadecimal digits. -/
def headerValue? (bytes : List UInt8) : Option Nat :=
  bytes.foldlM (fun n b => (hexValue? b).map (n * 16 + ·)) 0

/-- The state behind a complete header, given in order. -/
def afterHeader (complete : List (List UInt8)) (header : List UInt8) :
    Except FrameError Unit × FrameReader :=
  match headerValue? header with
  | some 0 => (.ok (), ⟨.inHeader [], complete ++ [[]]⟩)
  | some n => (.ok (), ⟨.inPayload [] n, complete⟩)
  | none =>
    (.error (.invalidHeader (Text.ofUtf8Lossy header)), ⟨.poisoned header.reverse, complete⟩)

/-! ## §2. Feeding. -/

/-- Take one byte of the stream. -/
def push (r : FrameReader) (b : UInt8) : Except FrameError Unit × FrameReader :=
  match r.phase with
  | .inHeader bytes =>
    if bytes.length + 1 = headerLength then afterHeader r.complete (b :: bytes).reverse
    else (.ok (), { r with phase := .inHeader (b :: bytes) })
  | .inPayload bytes missing =>
    if missing ≤ 1 then (.ok (), ⟨.inHeader [], r.complete ++ [(b :: bytes).reverse]⟩)
    else (.ok (), { r with phase := .inPayload (b :: bytes) (missing - 1) })
  | .poisoned _ => (.error .poisoned, r)

/-- Take bytes up to the first error; the bytes behind it are lost. -/
def pushAll (r : FrameReader) : List UInt8 → Except FrameError Unit × FrameReader
  | [] => (.ok (), r)
  | b :: bs =>
    match r.push b with
    | (.ok _, r) => r.pushAll bs
    | (.error e, r) => (.error e, r)

@[simp] theorem pushAll_nil (r : FrameReader) : r.pushAll [] = (.ok (), r) := rfl

@[simp] theorem pushAll_cons (r : FrameReader) (b : UInt8) (bs : List UInt8) :
    r.pushAll (b :: bs) =
      match r.push b with
      | (.ok _, r) => r.pushAll bs
      | (.error e, r) => (.error e, r) := rfl

/-- Bytes may be taken in two goes; the first error ends both. -/
theorem pushAll_append (r : FrameReader) (as bs : List UInt8) :
    r.pushAll (as ++ bs) =
      match r.pushAll as with
      | (.ok _, r) => r.pushAll bs
      | (.error e, r) => (.error e, r) := by
  induction as generalizing r with
  | nil => rfl
  | cons a as ih =>
    rw [List.cons_append, pushAll_cons, pushAll_cons]
    split
    · next r' _ => exact ih r'
    · rfl

/-- Whether the reader has met an invalid header. -/
def isPoisoned (r : FrameReader) : Bool :=
  match r.phase with
  | .poisoned _ => true
  | _ => false

/-- Take a chunk of the stream.  A poisoned reader refuses even an empty
one. -/
def feed (r : FrameReader) (bytes : List UInt8) : Except FrameError Unit × FrameReader :=
  if r.isPoisoned then (.error .poisoned, r) else r.pushAll bytes

/-! ## §3. Taking. -/

/-- Take the oldest complete payload.  One that is not UTF-8 is dropped. -/
def take (r : FrameReader) : Except FrameError (Option String) × FrameReader :=
  match r.complete with
  | [] => (.ok none, r)
  | bytes :: rest =>
    let r := { r with complete := rest }
    match Text.ofUtf8? bytes with
    | some payload => (.ok (some payload), r)
    | none => (.error .invalidUtf8, r)

/-- Whether a payload can be taken. -/
def hasComplete (r : FrameReader) : Bool := !r.complete.isEmpty

/-- The number of bytes held of the frame in progress: of its header or of its
payload. -/
def pending (r : FrameReader) : Nat :=
  match r.phase with
  | .inHeader bytes | .inPayload bytes _ | .poisoned bytes => bytes.length

end FrameReader

end LispLink.Wire
