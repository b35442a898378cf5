/-
  LispLink.Proofs.Wire.Accounts
  ────────────────────────────────
  **EVERY BYTE IS ACCOUNTED FOR.**

  The bytes of a stream are whole frames, and behind them what is held of the
  frame in progress.  Bytes are lost behind an invalid header only:

      stream  =  whole frames ++ held ++ lost

  The payloads of the whole frames are those that are complete or were taken, and
  none is missing: as many whole frames as the stream begins with are complete.
  So a reader fails at a header that is no number and nowhere else
  (`pushAll_error_iff`).
-/
import Mathlib.Algebra.GroupWithZero.Nat
import LispLink.Proofs.Wire.Buffers

namespace LispLink.Wire

/-! ## §1. Frames in a stream of bytes. -/

open FrameReader (Announces)

/-- Bytes that are whole frames in a row, with their payloads. -/
inductive WholeFrames : List UInt8 → List (List UInt8) → Prop
  | nil : WholeFrames [] []
  | cons {header payload bytes : List UInt8} {payloads : List (List UInt8)} :
      Announces header payload.length → WholeFrames bytes payloads →
        WholeFrames (header ++ payload ++ bytes) (payload :: payloads)

theorem WholeFrames.concat {bytes header payload : List UInt8} {payloads : List (List UInt8)}
    (h : WholeFrames bytes payloads) (hheader : Announces header payload.length) :
    WholeFrames (bytes ++ (header ++ payload)) (payloads ++ [payload]) := by
  induction h with
  | nil =>
      have hone := WholeFrames.cons hheader .nil
      rw [List.append_nil] at hone
      exact hone
  | cons hfirst _ ih =>
      rw [List.append_assoc]
      exact .cons hfirst ih

theorem WholeFrames.length_eq {bytes : List UInt8} {payloads : List (List UInt8)}
    (h : WholeFrames bytes payloads) :
    bytes.length = (payloads.map fun payload => headerLength + payload.length).sum := by
  induction h with
  | nil => rfl
  | cons hheader _ ih =>
      rw [List.length_append, List.length_append, hheader.length, ih, List.map_cons, List.sum_cons]

/-- What the buffers hold of a stream: the bytes of a header, or the header of the
frame in progress, of which only the number is kept, and bytes of its payload. -/
def Buffers.Holds (s : Buffers) (held : List UInt8) : Prop :=
  match s.current with
  | none => held = s.header
  | some f => ∃ header, Announces header f.declared ∧ held = header ++ f.payload

/-- The number of bytes that have come in but are not kept: those of the header of the
frame in progress. -/
def Buffers.announced (s : Buffers) : Nat := if s.current.isSome then headerLength else 0

theorem Buffers.IsSound.length_of_holds {s : Buffers} {held : List UInt8} (hs : s.IsSound)
    (h : s.Holds held) : held.length = s.pending + s.announced := by
  unfold Holds at h
  unfold pending announced
  cases hcurrent : s.current with
  | none =>
      rw [hcurrent] at h
      rw [h]
      rfl
  | some f =>
      rw [hcurrent] at h
      obtain ⟨header, hheader, rfl⟩ := h
      rw [List.length_append, hheader.length, (hs.unfinished f hcurrent).2]
      show headerLength + f.payload.length = 0 + f.payload.length + headerLength
      omega

/-- Of sound buffers the header and the frame in progress want no negative number of
bytes. -/
theorem Buffers.IsSound.differences {s : Buffers} (hs : s.IsSound) :
    s.wanted?.isSome ∧ ∀ f, s.current = some f → f.missing?.isSome := by
  constructor
  · have hle : s.header.length ≤ headerLength := by
      cases hp : s.poisoned with
      | true => exact Nat.le_of_eq (hs.invalid hp).1
      | false => exact Nat.le_of_lt (hs.unread hp)
    rw [wanted?, Nat.psub_eq_sub hle]
    rfl
  · intro f hf
    rw [OpenFrame.missing?, Nat.psub_eq_sub (Nat.le_of_lt (hs.unfinished f hf).1)]
    rfl

/-- Bytes that begin a frame and do not complete it: of its header, or of its payload
behind the header. -/
inductive IsBegun : List UInt8 → Prop
  | header {got : List UInt8} : got.length < headerLength → IsBegun got
  | payload {header got : List UInt8} {n : Nat} :
      Announces header n → got.length < n → IsBegun (header ++ got)

/-- Bytes that are whole frames with these payloads and the beginning of another. -/
def Flows (bytes : List UInt8) (payloads : List (List UInt8)) : Prop :=
  ∃ whole begun, bytes = whole ++ begun ∧ WholeFrames whole payloads ∧ IsBegun begun

/-- Bytes that are whole frames, then this header, which is no number, and then
anything. -/
def BreaksOff (bytes header : List UInt8) : Prop :=
  ∃ whole payloads lost, bytes = whole ++ header ++ lost ∧ WholeFrames whole payloads
    ∧ header.length = headerLength ∧ ¬ ∀ b ∈ header, IsHexDigit b

namespace FrameReader

/-! ## §2. Where the bytes are. -/

/-- The bytes that have come in are in the complete payloads, in the buffers, or lost
behind an invalid header. -/
def Accounts (stream : List UInt8) (r : FrameReader) : Prop :=
  ∃ whole held lost, stream = whole ++ held ++ lost ∧ WholeFrames whole r.complete
    ∧ r.buffers.Holds held ∧ (r.isPoisoned = false → lost = [])

theorem accounts_new : Accounts [] new := ⟨[], [], [], rfl, .nil, rfl, fun _ => rfl⟩

/-- What comes in behind an invalid header is lost. -/
theorem Accounts.lose {stream : List UInt8} {r : FrameReader} (h : Accounts stream r)
    (hp : r.isPoisoned = true) (bytes : List UInt8) : Accounts (stream ++ bytes) r := by
  obtain ⟨whole, held, lost, rfl, hwhole, hheld, _⟩ := h
  refine ⟨whole, held, lost ++ bytes, by rw [← List.append_assoc], hwhole, hheld, ?_⟩
  intro hp'
  rw [hp] at hp'
  cases hp'

/-- The byte that completes a header. -/
theorem accounts_afterHeader {whole header : List UInt8} {old : List (List UInt8)}
    (hwhole : WholeFrames whole old) (hlength : header.length = headerLength) :
    Accounts (whole ++ header) (afterHeader old header).2 := by
  unfold afterHeader
  cases hvalue : headerValue? header with
  | none =>
      refine ⟨whole, header, [], (List.append_nil _).symm, hwhole, ?_, fun _ => rfl⟩
      exact (List.reverse_reverse header).symm
  | some n =>
      cases n with
      | zero =>
          have hframe : WholeFrames (whole ++ (header ++ [])) (old ++ [[]]) :=
            hwhole.concat ⟨hlength, hvalue⟩
          refine ⟨whole ++ header, [], [], by simp, ?_, rfl, fun _ => rfl⟩
          rw [List.append_nil] at hframe
          exact hframe
      | succ n =>
          refine ⟨whole, header, [], (List.append_nil _).symm, hwhole, ?_, fun _ => rfl⟩
          refine ⟨header, ⟨hlength, ?_⟩, (List.append_nil _).symm⟩
          rw [hvalue, List.length_nil, Nat.zero_add]

/-- **A byte that comes in is held, or completes a payload.** -/
theorem accounts_push {stream : List UInt8} {r : FrameReader} (h : Accounts stream r)
    (hr : r.IsSound) (hp : r.isPoisoned = false) (b : UInt8) :
    Accounts (stream ++ [b]) (r.push b).2 := by
  obtain ⟨whole, held, lost, rfl, hwhole, hheld, hlost⟩ := h
  obtain rfl := hlost hp
  rw [List.append_nil, List.append_assoc]
  obtain ⟨phase, old⟩ := r
  unfold push
  cases phase with
  | inHeader got =>
      obtain rfl : held = got.reverse := hheld
      rw [← List.reverse_cons]
      dsimp only
      split
      · next hfull =>
          refine accounts_afterHeader hwhole ?_
          rw [List.length_reverse, List.length_cons, hfull]
      · exact ⟨whole, _, [], (List.append_nil _).symm, hwhole, rfl, fun _ => rfl⟩
  | inPayload got missing =>
      have hmissing : 0 < missing := hr
      obtain ⟨header, hheader, rfl⟩ := hheld
      rw [List.append_assoc header, ← List.reverse_cons]
      dsimp only
      split
      · next hlast =>
          have hlength : (b :: got).reverse.length = got.length + missing := by
            rw [List.length_reverse, List.length_cons]
            omega
          have hframe : WholeFrames (whole ++ (header ++ (b :: got).reverse))
              (old ++ [(b :: got).reverse]) := hwhole.concat (hlength ▸ hheader)
          exact ⟨_, [], [], by simp, hframe, rfl, fun _ => rfl⟩
      · next hopen =>
          have hdeclared : (b :: got).length + (missing - 1) = got.length + missing := by
            rw [List.length_cons]
            omega
          refine ⟨whole, _, [], (List.append_nil _).symm, hwhole, ?_, fun _ => rfl⟩
          exact ⟨header, hdeclared ▸ hheader, rfl⟩
  | poisoned got => cases hp

/-- The same of any number of bytes. -/
theorem accounts_pushAll {stream : List UInt8} {r : FrameReader} (h : Accounts stream r)
    (hr : r.IsSound) (hp : r.isPoisoned = false) (bytes : List UInt8) :
    Accounts (stream ++ bytes) (r.pushAll bytes).2 := by
  induction bytes generalizing stream r with
  | nil =>
      rw [List.append_nil]
      exact h
  | cons b bytes ih =>
      have hfirst := accounts_push h hr hp b
      have hsound := isSound_push hr b
      rw [← List.singleton_append, ← List.append_assoc, List.singleton_append, pushAll_cons]
      rcases push_cases hp b with ⟨r', hpush, hp'⟩ | ⟨header, _, hpush⟩
      · rw [hpush] at hfirst hsound ⊢
        exact ih hfirst hsound hp'
      · -- the header is invalid, so the bytes behind this one go nowhere
        rw [hpush] at hfirst ⊢
        exact hfirst.lose rfl bytes

/-! ## §3. How a stream goes. -/

/-- **Whole frames are complete as soon as they have come in.** -/
theorem pushAll_whole {bytes : List UInt8} {payloads : List (List UInt8)}
    (h : WholeFrames bytes payloads) (old : List (List UInt8)) :
    pushAll ⟨.inHeader [], old⟩ bytes = (.ok (), ⟨.inHeader [], old ++ payloads⟩) := by
  induction h generalizing old with
  | nil =>
      rw [List.append_nil]
      rfl
  | cons hheader _ ih =>
      rw [pushAll_append, pushAll_announced hheader]
      dsimp only
      rw [ih, List.append_assoc]
      rfl

/-- The beginning of a frame completes nothing. -/
theorem pushAll_begun {begun : List UInt8} (h : IsBegun begun) (old : List (List UInt8)) :
    ∃ phase, pushAll ⟨.inHeader [], old⟩ begun = (.ok (), ⟨phase, old⟩) := by
  cases h with
  | header hshort =>
      have hopen : ([] : List UInt8).length + begun.length < headerLength := by
        rw [List.length_nil, Nat.zero_add]
        exact hshort
      exact ⟨_, pushAll_header_open old hopen⟩
  | @payload header got n hheader hshort =>
      rw [pushAll_append, pushAll_wholeHeader old hheader.length, afterHeader, hheader.value]
      cases n with
      | zero => exact absurd hshort (Nat.not_lt_zero _)
      | succ n => exact ⟨_, pushAll_payload_open old hshort⟩

theorem pushAll_of_flows {bytes : List UInt8} {payloads : List (List UInt8)}
    (h : Flows bytes payloads) : ∃ phase, new.pushAll bytes = (.ok (), ⟨phase, payloads⟩) := by
  obtain ⟨whole, begun, rfl, hwhole, hbegun⟩ := h
  obtain ⟨phase, hpush⟩ := pushAll_begun hbegun payloads
  refine ⟨phase, ?_⟩
  rw [pushAll_append, new, pushAll_whole hwhole]
  exact hpush

theorem pushAll_of_breaksOff {bytes header : List UInt8} (h : BreaksOff bytes header) :
    ∃ r, new.pushAll bytes = (.error (.invalidHeader (Text.ofUtf8Lossy header)), r) := by
  obtain ⟨whole, payloads, lost, rfl, hwhole, hlength, hdigits⟩ := h
  have hvalue : headerValue? header = none := by
    rw [← headerValue?_isSome_iff] at hdigits
    exact Option.not_isSome_iff_eq_none.1 hdigits
  rw [List.append_assoc, pushAll_append, new, pushAll_whole hwhole, List.nil_append]
  dsimp only
  rw [pushAll_append, pushAll_wholeHeader payloads hlength, afterHeader, hvalue]
  exact ⟨_, rfl⟩

/-- Every stream goes one of the two ways. -/
theorem flows_or_breaksOff (bytes : List UInt8) :
    (∃ payloads, Flows bytes payloads) ∨ ∃ header, BreaksOff bytes header := by
  have hsound := isSound_pushAll isSound_new bytes
  obtain ⟨whole, held, lost, hsplit, hwhole, hheld, hlost⟩ :=
    accounts_pushAll accounts_new isSound_new rfl bytes
  rw [List.nil_append] at hsplit
  -- the phase in which the reader stops says what is held of the frame in progress
  generalize (new.pushAll bytes).2 = r at hsound hwhole hheld hlost
  obtain ⟨phase, payloads⟩ := r
  cases phase with
  | inHeader got =>
      obtain rfl : held = got.reverse := hheld
      obtain rfl := hlost rfl
      rw [List.append_nil] at hsplit
      have hshort : got.reverse.length < headerLength := by
        rw [List.length_reverse]
        exact hsound
      exact .inl ⟨payloads, whole, _, hsplit, hwhole, .header hshort⟩
  | inPayload got missing =>
      obtain ⟨header, hheader, rfl⟩ := hheld
      obtain rfl := hlost rfl
      rw [List.append_nil] at hsplit
      have hshort : got.reverse.length < got.length + missing := by
        rw [List.length_reverse]
        exact Nat.lt_add_of_pos_right hsound
      exact .inl ⟨payloads, whole, _, hsplit, hwhole, .payload hheader hshort⟩
  | poisoned got =>
      obtain rfl : held = got.reverse := hheld
      obtain ⟨hlength, hdigits, _⟩ := hsound.buffers.invalid rfl
      exact .inr ⟨_, whole, payloads, lost, hsplit, hwhole, hlength, hdigits⟩

/-- **A stream is taken in exactly if it is whole frames and the beginning of
another**, and the payloads of these frames are complete. -/
theorem pushAll_ok_iff {bytes : List UInt8} {payloads : List (List UInt8)} :
    (∃ phase, new.pushAll bytes = (.ok (), ⟨phase, payloads⟩)) ↔ Flows bytes payloads := by
  refine ⟨?_, pushAll_of_flows⟩
  rintro ⟨phase, hpush⟩
  rcases flows_or_breaksOff bytes with ⟨payloads', h⟩ | ⟨header, h⟩
  · obtain ⟨phase', hpush'⟩ := pushAll_of_flows h
    rw [hpush] at hpush'
    cases hpush'
    exact h
  · obtain ⟨r, hpush'⟩ := pushAll_of_breaksOff h
    rw [hpush] at hpush'
    cases hpush'

/-- **A stream fails exactly if behind whole frames there is a header that is no
number**, and that header is shown. -/
theorem pushAll_error_iff {bytes : List UInt8} {e : FrameError} :
    (∃ r, new.pushAll bytes = (.error e, r))
      ↔ ∃ header, BreaksOff bytes header ∧ e = .invalidHeader (Text.ofUtf8Lossy header) := by
  constructor
  · rintro ⟨r, hpush⟩
    rcases flows_or_breaksOff bytes with ⟨payloads, h⟩ | ⟨header, h⟩
    · obtain ⟨phase, hpush'⟩ := pushAll_of_flows h
      rw [hpush] at hpush'
      cases hpush'
    · obtain ⟨r', hpush'⟩ := pushAll_of_breaksOff h
      rw [hpush] at hpush'
      cases hpush'
      exact ⟨header, h, rfl⟩
  · rintro ⟨header, h, rfl⟩
    exact pushAll_of_breaksOff h

/-! ## §4. Scripts. -/

/-- The bytes of all the chunks of a script. -/
def arrived : List Op → List UInt8
  | [] => []
  | .feed bytes :: ops => bytes ++ arrived ops
  | .take :: ops => arrived ops

/-- The payloads that a script completes, taken or not. -/
def completed (r : FrameReader) (ops : List Op) : List (List UInt8) :=
  r.drawn ops ++ (r.after ops).complete

/-- Chunks with no taking in between are one chunk. -/
theorem after_withoutTaking (r : FrameReader) (ops : List Op) :
    r.after (withoutTaking ops) = (r.feed (arrived ops)).2 := by
  induction ops generalizing r with
  | nil =>
      cases hp : r.isPoisoned with
      | true => exact (congrArg Prod.snd (feed_of_isPoisoned hp [])).symm
      | false => exact (congrArg Prod.snd (feed_eq_pushAll hp [])).symm
  | cons op ops ih =>
      cases op with
      | feed bytes =>
          rw [withoutTaking_feed, after_cons, perform, ih, arrived, (feed_append_result r _ _).1]
      | take => exact ih r

/-- Where a script leads, and what it completes, is what all its bytes do in one go. -/
theorem script_eq_pushAll (ops : List Op) :
    (new.after ops).phase = (new.pushAll (arrived ops)).2.phase
      ∧ new.completed ops = (new.pushAll (arrived ops)).2.complete := by
  obtain ⟨_, hphase, hcomplete⟩ := drawing_in_between new ops
  have hone : new.after (withoutTaking ops) = (new.pushAll (arrived ops)).2 := by
    rw [after_withoutTaking, feed_eq_pushAll rfl]
  rw [hone] at hphase hcomplete
  exact ⟨hphase, hcomplete⟩

/-- A reader is not poisoned while its chunks are received well. -/
theorem isPoisoned_of_fed {r : FrameReader} {ops : List Op} (hp : r.isPoisoned = false)
    (h : ∀ result ∈ r.fed ops, result = .ok ()) : (r.after ops).isPoisoned = false := by
  induction ops generalizing r with
  | nil => exact hp
  | cons op ops ih =>
      cases op with
      | feed bytes =>
          rw [fed, List.forall_mem_cons] at h
          rcases pushAll_cases hp bytes with ⟨r', hpush, hp'⟩ | ⟨header, r', hpush, _⟩
          · rw [after_cons, perform, feed_eq_pushAll hp, hpush]
            rw [feed_eq_pushAll hp, hpush] at h
            exact ih hp' h.2
          · rw [feed_eq_pushAll hp, hpush] at h
            cases h.1
      | take =>
          refine ih ?_ h
          rw [perform, take_eq]
          exact hp

/-- No frame at the beginning of a stream is withheld. -/
theorem prefix_completed {ops : List Op} {whole : List UInt8} {payloads : List (List UInt8)}
    (h : WholeFrames whole payloads) (hbegins : whole <+: arrived ops) :
    payloads <+: new.completed ops := by
  obtain ⟨later, hlater⟩ := hbegins
  rw [(script_eq_pushAll ops).2, ← hlater, pushAll_append, new, pushAll_whole h]
  dsimp only
  rw [pushAll_eq]
  exact List.prefix_append _ _

/-! ## §5. The account of a stream. -/

/-- Buffers that do what a reader does, whatever comes next. -/
structure Mirrors (r : FrameReader) (s : Buffers) : Prop where
  buffers : s = r.buffers
  feed : ∀ bytes, s.feed? bytes = some ((r.feed bytes).1, (r.feed bytes).2.buffers)
  take : s.take = (r.take.1, r.take.2.buffers)
  pending : s.pending = r.pending

theorem IsSound.mirrors {r : FrameReader} (hr : r.IsSound) : r.Mirrors r.buffers :=
  ⟨rfl, feed?_buffers hr, take_buffers r, pending_buffers r⟩

/-- What the buffers hold depends on the place in the stream only. -/
theorem holds_congr {r r' : FrameReader} (h : r.phase = r'.phase) (held : List UInt8) :
    r.buffers.Holds held ↔ r'.buffers.Holds held := by
  obtain ⟨phase, old⟩ := r
  obtain ⟨phase', old'⟩ := r'
  obtain rfl : phase = phase' := h
  cases phase <;> exact Iff.rfl

/-- The account behind a script. -/
theorem accounts_after (ops : List Op) :
    ∃ whole held lost, arrived ops = whole ++ held ++ lost
      ∧ WholeFrames whole (new.completed ops) ∧ (new.after ops).buffers.Holds held
      ∧ ((new.after ops).isPoisoned = false → lost = []) := by
  obtain ⟨hphase, hcompleted⟩ := script_eq_pushAll ops
  obtain ⟨whole, held, lost, hsplit, hwhole, hheld, hlost⟩ :=
    accounts_pushAll accounts_new isSound_new rfl (arrived ops)
  rw [List.nil_append] at hsplit
  rw [← holds_congr hphase] at hheld
  rw [isPoisoned, ← hphase] at hlost
  exact ⟨whole, held, lost, hsplit, hcompleted ▸ hwhole, hheld, hlost⟩

/-- While all is received well, the numbers of bytes add up. -/
theorem length_arrived {ops : List Op} (h : ∀ result ∈ new.fed ops, result = .ok ()) :
    (arrived ops).length = (new.after ops).buffers.pending + (new.after ops).buffers.announced
      + ((new.completed ops).map fun payload => headerLength + payload.length).sum := by
  obtain ⟨whole, held, lost, hsplit, hwhole, hheld, hlost⟩ := accounts_after ops
  have hsound := (isSound_after isSound_new ops).buffers
  rw [hsplit, hlost (isPoisoned_of_fed rfl h), List.append_nil, List.length_append,
    hwhole.length_eq, hsound.length_of_holds hheld, Nat.add_comm]

/-- **What is in the buffers belongs together, and every byte is accounted for.**
Wherever a pass may begin, the buffers are sound, and the pass exists and takes at
least one byte.  Behind every script of chunks and takings they are sound, hold what
the reader holds, and do what it does.  The bytes that have come in are whole
frames, the bytes held of the frame in progress, and behind an invalid header
those that are lost; the payloads of the whole frames are those that are complete or
were taken, and all whole frames with which the bytes begin are among them.  So
while no chunk has failed, the numbers of bytes add up. -/
theorem bytes_are_conserved :
    (∀ (s : Buffers) (bytes : List UInt8), s.AtHead bytes →
        s.IsSound ∧ (bytes ≠ [] → ∃ p, s.pass? bytes = some p ∧ p.rest.length < bytes.length))
      ∧ ∀ ops : List Op, ∃ s : Buffers, Buffers.new.after? ops = some s
          ∧ (new.after ops).Mirrors s ∧ s.IsSound
          ∧ s.wanted?.isSome ∧ (∀ f, s.current = some f → f.missing?.isSome)
          ∧ (∀ whole payloads, WholeFrames whole payloads → whole <+: arrived ops →
              payloads <+: new.completed ops)
          ∧ new.delivered ops = (new.drawn ops).map delivery
          ∧ (∃ whole held lost, arrived ops = whole ++ held ++ lost
              ∧ WholeFrames whole (new.completed ops) ∧ s.Holds held
              ∧ (s.poisoned = false → lost = []))
          ∧ ((∀ result ∈ new.fed ops, result = .ok ()) →
              (arrived ops).length = s.pending + s.announced
                + ((new.completed ops).map fun payload => headerLength + payload.length).sum) := by
  constructor
  · intro s bytes hhead
    obtain ⟨r, rfl, hr, hp⟩ := exists_of_atHead hhead
    refine ⟨hr.buffers, fun hne => ?_⟩
    obtain ⟨n, hpos, hpass⟩ := pass?_buffers hr hp hne
    exact ⟨_, hpass, length_drop_lt hpos hne⟩
  · intro ops
    have hr : (new.after ops).IsSound := isSound_after isSound_new ops
    obtain ⟨hwanted, hmissing⟩ := hr.buffers.differences
    refine ⟨(new.after ops).buffers, after?_buffers isSound_new ops, hr.mirrors, hr.buffers,
      hwanted, hmissing, ?_, delivered_eq_drawn new ops, ?_, length_arrived⟩
    · intro whole payloads hwhole hbegins
      exact prefix_completed hwhole hbegins
    · rw [poisoned_buffers]
      exact accounts_after ops

/-- A frame and four digits of the next header, a taking, and the rest of the header
with two bytes of a payload of three.  The second pass over the last chunk begins in
the midst of it. -/
theorem bytes_are_conserved_midway :
    let chunk := Text.utf8 "03bc"
    let earlier : List Op := [.feed (Text.utf8 "000001a0000"), .take]
    let ops : List Op := earlier ++ [.feed chunk]
    let inFrame : Buffers := ⟨[], some ⟨3, []⟩, [], false⟩
    inFrame.AtHead (Text.utf8 "bc")
      ∧ (∃ p, inFrame.pass? (Text.utf8 "bc") = some p ∧ p.rest.length < 2)
      ∧ WholeFrames (Text.utf8 "000001a") [Text.utf8 "a"]
      ∧ Text.utf8 "000001a" <+: arrived ops ∧ [Text.utf8 "a"] <+: new.completed ops
      ∧ (∀ result ∈ new.fed ops, result = .ok ())
      ∧ (arrived ops).length = 2 + 6 + (6 + 1) := by
  intro chunk earlier ops inFrame
  have hpass : (new.after earlier).buffers.pass? chunk
      = some ⟨.ok (), inFrame, Text.utf8 "bc"⟩ := rfl
  have hhead : inFrame.AtHead (Text.utf8 "bc") :=
    .pass (.feed chunk (after?_buffers isSound_new earlier) rfl) (by decide) hpass rfl
  have hwhole : WholeFrames (Text.utf8 "000001a") [Text.utf8 "a"] := by
    have hheader : Announces (Text.utf8 "000001") (Text.utf8 "a").length := ⟨rfl, rfl⟩
    exact .cons hheader .nil
  have hbegins : Text.utf8 "000001a" <+: arrived ops := ⟨Text.utf8 "000003bc", rfl⟩
  have hfed : ∀ result ∈ new.fed ops, result = .ok () := by
    have hresults : new.fed ops = [.ok (), .ok ()] := rfl
    rw [hresults]
    simp
  obtain ⟨hpasses, hscripts⟩ := bytes_are_conserved
  obtain ⟨s, _, hmirrors, _, _, _, hfinished, _, _, hlength⟩ := hscripts ops
  obtain rfl := hmirrors.buffers
  exact ⟨hhead, (hpasses _ _ hhead).2 (by decide), hwhole, hbegins,
    hfinished _ _ hwhole hbegins, hfed, hlength hfed⟩

end FrameReader

end LispLink.Wire
