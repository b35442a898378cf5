/-
  LispLink.Proofs.Wire.Stream
  ────────────────────────────────
  **WHAT A STREAM OF BYTES DOES TO A READER.**

  The payloads that wait to be taken have no say in what a reader does: bytes
  move its place in the stream and put new payloads behind the old ones,

      pushAll (place, old) bs  =  (place', old ++ new)

  with `place'` and `new` those of a reader with nothing to take.  The only
  error that a sound reader makes is an invalid header; it is poisoned from
  there on.
-/
import LispLink.Wire.FrameReader

namespace LispLink.Wire.FrameReader

/-! ## §1. Waiting payloads. -/

/-- A result with more payloads waiting before those that it has. -/
def prepend (old : List (List UInt8)) (x : Except FrameError Unit × FrameReader) :
    Except FrameError Unit × FrameReader :=
  (x.1, ⟨x.2.phase, old ++ x.2.complete⟩)

theorem prepend_prepend (old new : List (List UInt8))
    (x : Except FrameError Unit × FrameReader) :
    prepend old (prepend new x) = prepend (old ++ new) x := by
  unfold prepend
  rw [List.append_assoc]

theorem afterHeader_eq (old : List (List UInt8)) (header : List UInt8) :
    afterHeader old header = prepend old (afterHeader [] header) := by
  unfold afterHeader prepend
  cases headerValue? header with
  | none => simp
  | some n => cases n <;> simp

theorem push_eq (r : FrameReader) (b : UInt8) :
    r.push b = prepend r.complete (push ⟨r.phase, []⟩ b) := by
  obtain ⟨phase, old⟩ := r
  unfold push
  cases phase with
  | inHeader bytes =>
      dsimp only
      split
      · rw [afterHeader_eq]
      · simp [prepend]
  | inPayload bytes missing =>
      dsimp only
      split <;> simp [prepend]
  | poisoned bytes => simp [prepend]

/-- **Waiting payloads stay in front of the new ones and change nothing else.** -/
theorem pushAll_eq (r : FrameReader) (bs : List UInt8) :
    r.pushAll bs = prepend r.complete (pushAll ⟨r.phase, []⟩ bs) := by
  induction bs generalizing r with
  | nil => simp [prepend]
  | cons b bs ih =>
      rw [pushAll_cons, pushAll_cons, push_eq r]
      cases hpush : push ⟨r.phase, []⟩ b with
      | mk result r' =>
          cases result with
          | error e => rfl
          | ok _ =>
              show pushAll ⟨r'.phase, r.complete ++ r'.complete⟩ bs
                = prepend r.complete (r'.pushAll bs)
              rw [ih ⟨r'.phase, r.complete ++ r'.complete⟩, ih r', prepend_prepend]

/-! ## §2. Errors. -/

/-- What one byte can do to a sound reader: it stays sound, or a header is
complete that is no number. -/
theorem push_cases {r : FrameReader} (hr : r.isPoisoned = false) (b : UInt8) :
    (∃ r', r.push b = (.ok (), r') ∧ r'.isPoisoned = false) ∨
      ∃ header, headerValue? header = none
        ∧ r.push b = (.error (.invalidHeader (Text.ofUtf8Lossy header)),
            ⟨.poisoned header.reverse, r.complete⟩) := by
  obtain ⟨phase, old⟩ := r
  unfold push
  cases phase with
  | inHeader bytes =>
      dsimp only
      split
      · unfold afterHeader
        cases hvalue : headerValue? (b :: bytes).reverse with
        | none => exact .inr ⟨(b :: bytes).reverse, hvalue, rfl⟩
        | some n =>
            cases n with
            | zero => exact .inl ⟨_, rfl, rfl⟩
            | succ n => exact .inl ⟨_, rfl, rfl⟩
      · exact .inl ⟨_, rfl, rfl⟩
  | inPayload bytes missing =>
      dsimp only
      split <;> exact .inl ⟨_, rfl, rfl⟩
  | poisoned bytes => cases hr

/-- One byte completes at most one payload. -/
theorem complete_of_push {r r' : FrameReader} {b : UInt8} (hpush : r.push b = (.ok (), r')) :
    r'.complete = r.complete ∨ ∃ payload, r'.complete = r.complete ++ [payload] := by
  obtain ⟨phase, old⟩ := r
  unfold push at hpush
  cases phase with
  | inHeader bytes =>
      dsimp only at hpush
      split at hpush
      · unfold afterHeader at hpush
        cases hvalue : headerValue? (b :: bytes).reverse with
        | none =>
            rw [hvalue] at hpush
            cases hpush
        | some n =>
            rw [hvalue] at hpush
            cases n with
            | zero =>
                cases hpush
                exact .inr ⟨[], rfl⟩
            | succ n =>
                cases hpush
                exact .inl rfl
      · cases hpush
        exact .inl rfl
  | inPayload bytes missing =>
      dsimp only at hpush
      split at hpush
      · cases hpush
        exact .inr ⟨_, rfl⟩
      · cases hpush
        exact .inl rfl
  | poisoned bytes => cases hpush

/-- What bytes can do to a sound reader. -/
theorem pushAll_cases {r : FrameReader} (hr : r.isPoisoned = false) (bs : List UInt8) :
    (∃ r', r.pushAll bs = (.ok (), r') ∧ r'.isPoisoned = false) ∨
      ∃ header r', r.pushAll bs = (.error (.invalidHeader header), r')
        ∧ r'.isPoisoned = true := by
  induction bs generalizing r with
  | nil => exact .inl ⟨r, rfl, hr⟩
  | cons b bs ih =>
      rw [pushAll_cons]
      rcases push_cases hr b with ⟨r', hpush, hr'⟩ | ⟨header, _, hpush⟩
      · rw [hpush]
        exact ih hr'
      · rw [hpush]
        exact .inr ⟨_, _, rfl, rfl⟩

theorem feed_eq_pushAll {r : FrameReader} (hr : r.isPoisoned = false) (bs : List UInt8) :
    r.feed bs = r.pushAll bs := by
  rw [feed, hr]
  rfl

end LispLink.Wire.FrameReader
