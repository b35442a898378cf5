/-
  LispLink.Proofs.Wire.Buffers
  ────────────────────────────────
  **A READER THAT COPIES BYTES IN RUNS.**

  A frame reader takes one byte after the other.  A reader with buffers does the
  same in passes over a chunk, each of which copies as many bytes as the header or
  the payload in progress still wants:

      pass bs  =  push each of the first n bytes of bs,   0 < n

  How many bytes are wanted is a difference of two sizes, and what is in the
  buffers decides whether there is one.  In every state that chunks and takings
  lead to there is, and no pass stands still; so what is in the buffers and what
  comes back are always those of the reader that takes bytes one by one.
-/
import Mathlib.Data.Nat.PSub
import LispLink.Proofs.Wire.RoundTrip

namespace LispLink.Wire

/-! ## §1. Buffers. -/

/-- A frame the payload of which is still arriving. -/
structure OpenFrame where
  /-- The number that its header tells. -/
  declared : Nat
  payload : List UInt8
  deriving DecidableEq, Repr

/-- How many bytes of the payload are still to come. -/
def OpenFrame.missing? (f : OpenFrame) : Option Nat := Nat.psub f.declared f.payload.length

/-- What a reader keeps that copies bytes in runs. -/
structure Buffers where
  /-- The bytes of the next header that have arrived. -/
  header : List UInt8
  current : Option OpenFrame
  /-- The complete payloads, oldest first. -/
  complete : List (List UInt8)
  poisoned : Bool
  deriving DecidableEq, Repr

/-- What one pass over a chunk comes to. -/
structure Pass where
  result : Except FrameError Unit
  buffers : Buffers
  /-- The bytes that are left to later passes. -/
  rest : List UInt8

namespace Buffers

/-- The buffers at the start of a stream. -/
def new : Buffers := ⟨[], none, [], false⟩

/-- How many bytes the header still wants. -/
def wanted? (s : Buffers) : Option Nat := Nat.psub headerLength s.header.length

/-- The frame in progress is complete. -/
def finish (s : Buffers) : Buffers :=
  match s.current with
  | some f => { s with current := none, complete := s.complete ++ [f.payload] }
  | none => s

/-- The payload begins, and ends at once if it has no bytes. -/
def start (s : Buffers) (declared : Nat) : Buffers :=
  let s := { s with current := some ⟨declared, []⟩ }
  if declared = 0 then s.finish else s

/-- The first `n` bytes go to the header. -/
def fillHeader (s : Buffers) (n : Nat) (bytes : List UInt8) : Pass :=
  let s := { s with header := s.header ++ bytes.take n }
  if s.header.length = headerLength then
    match FrameReader.headerValue? s.header with
    | some declared => ⟨.ok (), { s with header := [] }.start declared, bytes.drop n⟩
    | none =>
      ⟨.error (.invalidHeader (Text.ofUtf8Lossy s.header)), { s with poisoned := true },
        bytes.drop n⟩
  else ⟨.ok (), s, bytes.drop n⟩

/-- The first `n` bytes go to the payload, unless these are more than it wants. -/
def fillPayload? (s : Buffers) (f : OpenFrame) (n : Nat) (bytes : List UInt8) : Option Pass :=
  let f := { f with payload := f.payload ++ bytes.take n }
  let s := { s with current := some f }
  f.missing?.map fun missing =>
    ⟨.ok (), if missing = 0 then s.finish else s, bytes.drop n⟩

/-- One pass over a chunk.  There is none if a difference of sizes does not exist. -/
def pass? (s : Buffers) (bytes : List UInt8) : Option Pass :=
  match s.current with
  | none => s.wanted?.map fun wanted => s.fillHeader (min wanted bytes.length) bytes
  | some f =>
    f.missing?.bind fun missing => s.fillPayload? f (min missing bytes.length) bytes

/-- Passes until no bytes are left or one fails.  They come to no end where there is
no pass, and where one leaves all the bytes. -/
def passes? (s : Buffers) (bytes : List UInt8) : Option (Except FrameError Unit × Buffers) :=
  if bytes = [] then some (.ok (), s)
  else
    (s.pass? bytes).bind fun p =>
      match p.result with
      | .error e => some (.error e, p.buffers)
      | .ok _ => if p.rest.length < bytes.length then passes? p.buffers p.rest else none
termination_by bytes.length

/-- Take a chunk of the stream. -/
def feed? (s : Buffers) (bytes : List UInt8) : Option (Except FrameError Unit × Buffers) :=
  if s.poisoned then some (.error .poisoned, s) else s.passes? bytes

/-- Take the oldest complete payload.  One that is not UTF-8 is dropped. -/
def take (s : Buffers) : Except FrameError (Option String) × Buffers :=
  match s.complete with
  | [] => (.ok none, s)
  | bytes :: rest => ((FrameReader.delivery bytes).map some, { s with complete := rest })

/-- The number of bytes held of the frame in progress. -/
def pending (s : Buffers) : Nat := s.header.length + s.current.elim 0 (·.payload.length)

/-- The buffers behind one operation. -/
def perform? (s : Buffers) : FrameReader.Op → Option Buffers
  | .feed bytes => (s.feed? bytes).map Prod.snd
  | .take => some s.take.2

/-- The buffers behind a script. -/
def after? (s : Buffers) (ops : List FrameReader.Op) : Option Buffers := ops.foldlM perform? s

/-- The buffers and the bytes with which a pass may have to begin: when a chunk comes
in behind any script, and behind any pass that did not fail. -/
inductive AtHead : Buffers → List UInt8 → Prop
  | feed {ops : List FrameReader.Op} {s : Buffers} (bytes : List UInt8) :
      new.after? ops = some s → s.poisoned = false → AtHead s bytes
  | pass {s : Buffers} {bytes : List UInt8} {p : Pass} :
      AtHead s bytes → bytes ≠ [] → s.pass? bytes = some p → p.result = .ok () →
        AtHead p.buffers p.rest

end Buffers

/-! ## §2. What may be in the buffers. -/

/-- The hexadecimal digits of ASCII, of either case. -/
def IsHexDigit (b : UInt8) : Prop := b ∈ Text.utf8 "0123456789abcdefABCDEF"

/-- What is in the buffers belongs together. -/
structure Buffers.IsSound (s : Buffers) : Prop where
  /-- A frame in progress wants at least one byte more, and there is no other header
  behind it. -/
  unfinished : ∀ f, s.current = some f → f.payload.length < f.declared ∧ s.header = []
  unread : s.poisoned = false → s.header.length < headerLength
  /-- The header that poisoned the reader is kept: it is complete, but no number. -/
  invalid : s.poisoned = true →
    s.header.length = headerLength ∧ (¬ ∀ b ∈ s.header, IsHexDigit b) ∧ s.current = none

/-- What the buffers hold when the reader is in this state. -/
def FrameReader.buffers (r : FrameReader) : Buffers :=
  match r.phase with
  | .inHeader bytes => ⟨bytes.reverse, none, r.complete, false⟩
  | .inPayload bytes missing =>
    ⟨[], some ⟨bytes.length + missing, bytes.reverse⟩, r.complete, false⟩
  | .poisoned bytes => ⟨bytes.reverse, none, r.complete, true⟩

namespace FrameReader

theorem hexValue?_isSome_iff (b : UInt8) : (hexValue? b).isSome ↔ IsHexDigit b := by
  have hall : ∀ n < 256, (hexValue? (UInt8.ofNat n)).isSome
      ↔ UInt8.ofNat n ∈ Text.utf8 "0123456789abcdefABCDEF" := by decide +kernel
  have hb := hall b.toNat b.toNat_lt
  rw [UInt8.ofNat_toNat] at hb
  exact hb

/-- **A header is a number exactly if all its bytes are hexadecimal digits.** -/
theorem headerValue?_isSome_iff (bytes : List UInt8) :
    (headerValue? bytes).isSome ↔ ∀ b ∈ bytes, IsHexDigit b := by
  unfold headerValue?
  generalize 0 = n
  induction bytes generalizing n with
  | nil => simp
  | cons b bytes ih =>
      rw [List.foldlM_cons, List.forall_mem_cons, ← hexValue?_isSome_iff b]
      cases hexValue? b with
      | none => simp
      | some d => simpa using ih (n * 16 + d)

theorem poisoned_buffers (r : FrameReader) : r.buffers.poisoned = r.isPoisoned := by
  obtain ⟨phase, complete⟩ := r
  cases phase <;> rfl

theorem complete_buffers (r : FrameReader) : r.buffers.complete = r.complete := by
  obtain ⟨phase, complete⟩ := r
  cases phase <;> rfl

theorem pending_buffers (r : FrameReader) : r.buffers.pending = r.pending := by
  obtain ⟨phase, complete⟩ := r
  cases phase <;> simp [buffers, pending, Buffers.pending]

/-- Taking out of the buffers is taking from the reader. -/
theorem take_buffers (r : FrameReader) : r.buffers.take = (r.take.1, r.take.2.buffers) := by
  obtain ⟨phase, complete⟩ := r
  unfold Buffers.take
  rw [complete_buffers]
  cases complete with
  | nil => rfl
  | cons bytes rest =>
      unfold take delivery
      dsimp only
      cases Text.ofUtf8? bytes <;> cases phase <;> rfl

/-! ## §3. What a reader may be in the midst of. -/

theorem headerLength_pos : 0 < headerLength := by decide

/-- Every place in a stream that a reader can come to. -/
def IsSound (r : FrameReader) : Prop :=
  match r.phase with
  | .inHeader bytes => bytes.length < headerLength
  | .inPayload _ missing => 0 < missing
  | .poisoned bytes => bytes.length = headerLength ∧ headerValue? bytes.reverse = none

/-- **What a reader at such a place keeps in its buffers belongs together.** -/
theorem IsSound.buffers {r : FrameReader} (hr : r.IsSound) : r.buffers.IsSound := by
  obtain ⟨phase, old⟩ := r
  cases phase with
  | inHeader bytes =>
      refine ⟨fun f hf => (nomatch hf), fun _ => ?_, fun hp => (nomatch hp)⟩
      show bytes.reverse.length < headerLength
      rw [List.length_reverse]
      exact hr
  | inPayload bytes missing =>
      refine ⟨fun f hf => ?_, fun _ => headerLength_pos, fun hp => (nomatch hp)⟩
      obtain rfl := Option.some.inj hf
      refine ⟨?_, rfl⟩
      rw [List.length_reverse]
      exact Nat.lt_add_of_pos_right hr
  | poisoned bytes =>
      obtain ⟨hlength, hvalue⟩ := hr
      refine ⟨fun f hf => (nomatch hf), fun hp => (nomatch hp), fun _ => ⟨?_, ?_, rfl⟩⟩
      · exact List.length_reverse.trans hlength
      · show ¬ ∀ b ∈ bytes.reverse, _
        rw [← headerValue?_isSome_iff, hvalue]
        exact Bool.false_ne_true

theorem isSound_afterHeader (old : List (List UInt8)) {header : List UInt8}
    (h : header.length = headerLength) : (afterHeader old header).2.IsSound := by
  unfold afterHeader
  cases hvalue : headerValue? header with
  | none =>
      refine ⟨List.length_reverse.trans h, ?_⟩
      rw [List.reverse_reverse]
      exact hvalue
  | some n =>
      cases n with
      | zero => exact headerLength_pos
      | succ n => exact Nat.succ_pos n

/-- **A byte takes a reader to a sound place again.** -/
theorem isSound_push {r : FrameReader} (hr : r.IsSound) (b : UInt8) : (r.push b).2.IsSound := by
  obtain ⟨phase, old⟩ := r
  unfold push
  cases phase with
  | inHeader bytes =>
      dsimp only
      split
      · next hfull =>
          apply isSound_afterHeader
          rw [List.length_reverse, List.length_cons, hfull]
      · next hopen => exact Nat.lt_of_le_of_ne hr hopen
  | inPayload bytes missing =>
      dsimp only
      split
      · exact headerLength_pos
      · next hmissing => exact Nat.sub_pos_of_lt (Nat.lt_of_not_le hmissing)
  | poisoned bytes => exact hr

theorem isSound_pushAll {r : FrameReader} (hr : r.IsSound) (bytes : List UInt8) :
    (r.pushAll bytes).2.IsSound := by
  induction bytes generalizing r with
  | nil => exact hr
  | cons b bytes ih =>
      have hpush := isSound_push hr b
      rw [pushAll_cons]
      cases h : r.push b with
      | mk result r' =>
          rw [h] at hpush
          cases result with
          | ok _ => exact ih hpush
          | error e => exact hpush

theorem isSound_feed {r : FrameReader} (hr : r.IsSound) (bytes : List UInt8) :
    (r.feed bytes).2.IsSound := by
  unfold feed
  split
  · exact hr
  · exact isSound_pushAll hr bytes

/-- **Chunks and takings lead to sound places only.** -/
theorem isSound_after {r : FrameReader} (hr : r.IsSound) (ops : List Op) :
    (r.after ops).IsSound := by
  induction ops generalizing r with
  | nil => exact hr
  | cons op ops ih =>
      rw [after_cons]
      cases op with
      | feed bytes => exact ih (isSound_feed hr bytes)
      | take =>
          apply ih
          rw [perform, take_eq]
          exact hr

theorem isSound_new : new.IsSound := headerLength_pos

/-! ## §4. One pass. -/

/-- Bytes that do not complete a header. -/
theorem pushAll_header_open {bytes : List UInt8} (old : List (List UInt8)) {got : List UInt8}
    (h : got.length + bytes.length < headerLength) :
    pushAll ⟨.inHeader got, old⟩ bytes = (.ok (), ⟨.inHeader (bytes.reverse ++ got), old⟩) := by
  induction bytes generalizing got with
  | nil => rfl
  | cons b bytes ih =>
      rw [List.length_cons] at h
      have hpush : push ⟨.inHeader got, old⟩ b = (.ok (), ⟨.inHeader (b :: got), old⟩) := by
        unfold push
        exact if_neg (by omega)
      rw [pushAll_cons, hpush]
      show pushAll ⟨.inHeader (b :: got), old⟩ bytes = _
      rw [ih (by rw [List.length_cons]; omega), List.reverse_cons, List.append_assoc]
      rfl

/-- Bytes that do not complete a payload. -/
theorem pushAll_payload_open {bytes : List UInt8} (old : List (List UInt8)) {got : List UInt8}
    {missing : Nat} (h : bytes.length < missing) :
    pushAll ⟨.inPayload got missing, old⟩ bytes
      = (.ok (), ⟨.inPayload (bytes.reverse ++ got) (missing - bytes.length), old⟩) := by
  induction bytes generalizing got missing with
  | nil => rfl
  | cons b bytes ih =>
      rw [List.length_cons] at h
      have hpush : push ⟨.inPayload got missing, old⟩ b
          = (.ok (), ⟨.inPayload (b :: got) (missing - 1), old⟩) := by
        unfold push
        exact if_neg (by omega)
      rw [pushAll_cons, hpush]
      show pushAll ⟨.inPayload (b :: got) (missing - 1), old⟩ bytes = _
      rw [ih (by omega), List.reverse_cons, List.append_assoc, List.length_cons, Nat.sub_sub,
        Nat.add_comm 1]
      rfl

/-- What a pass comes to that pushes the first `n` bytes. -/
def passOver (r : FrameReader) (n : Nat) (bytes : List UInt8) : Pass :=
  ⟨(r.pushAll (bytes.take n)).1, (r.pushAll (bytes.take n)).2.buffers, bytes.drop n⟩

/-- A header is filled as by pushing its bytes. -/
theorem fillHeader_buffers (old : List (List UInt8)) {got bytes : List UInt8} {n : Nat}
    (hne : bytes.take n ≠ []) (h : got.length + (bytes.take n).length ≤ headerLength) :
    (buffers ⟨.inHeader got, old⟩).fillHeader n bytes = passOver ⟨.inHeader got, old⟩ n bytes := by
  unfold Buffers.fillHeader passOver
  simp only [buffers, List.length_append, List.length_reverse]
  by_cases hfull : got.length + (bytes.take n).length = headerLength
  · rw [if_pos hfull, pushAll_header old hne hfull, afterHeader]
    cases headerValue? (got.reverse ++ bytes.take n) with
    | none => simp
    | some declared =>
        cases declared with
        | zero => rfl
        | succ declared => simp [Buffers.start]
  · rw [if_neg hfull, pushAll_header_open old (by omega)]
    simp

/-- A payload is filled as by pushing its bytes. -/
theorem fillPayload?_buffers (old : List (List UInt8)) {got bytes : List UInt8} {missing n : Nat}
    (hne : bytes.take n ≠ []) (h : (bytes.take n).length ≤ missing) :
    (buffers ⟨.inPayload got missing, old⟩).fillPayload? ⟨got.length + missing, got.reverse⟩ n bytes
      = some (passOver ⟨.inPayload got missing, old⟩ n bytes) := by
  unfold Buffers.fillPayload? passOver OpenFrame.missing?
  generalize bytes.take n = run at hne h ⊢
  have hpos : 0 < run.length := List.length_pos_iff.2 hne
  have hmissing : Nat.psub (got.length + missing) (got.reverse ++ run).length
      = some (missing - run.length) := by
    rw [List.length_append, List.length_reverse, Nat.psub_eq_sub (by omega), Nat.add_sub_add_left]
  dsimp only
  rw [hmissing, Option.map_some]
  by_cases hfull : run.length = missing
  · rw [pushAll_payload old (by omega) hfull, if_pos (by omega)]
    rfl
  · rw [pushAll_payload_open old (by omega), if_neg (by omega)]
    have hdeclared : run.length + got.length + (missing - run.length) = got.length + missing := by
      omega
    simp [buffers, hdeclared]

theorem length_drop_lt {bytes : List UInt8} {n : Nat} (hpos : 0 < n) (hne : bytes ≠ []) :
    (bytes.drop n).length < bytes.length := by
  rw [List.length_drop]
  exact Nat.sub_lt (List.length_pos_iff.2 hne) hpos

/-- **A pass takes at least one byte**, and does with the bytes that it takes what
pushing them does. -/
theorem pass?_buffers {r : FrameReader} (hr : r.IsSound) (hp : r.isPoisoned = false)
    {bytes : List UInt8} (hne : bytes ≠ []) :
    ∃ n, 0 < n ∧ r.buffers.pass? bytes = some (r.passOver n bytes) := by
  have hlength : 0 < bytes.length := List.length_pos_iff.2 hne
  -- so many bytes are there to take if any are wanted
  have hrun : ∀ wanted, 0 < wanted → bytes.take (min wanted bytes.length) ≠ [] := by
    intro wanted hwanted hnil
    have hzero := congrArg List.length hnil
    rw [List.length_take, List.length_nil] at hzero
    omega
  obtain ⟨phase, old⟩ := r
  cases phase with
  | inHeader got =>
      have hshort : got.length < headerLength := hr
      refine ⟨min (headerLength - got.length) bytes.length, by omega, ?_⟩
      have hwanted : (buffers ⟨.inHeader got, old⟩).wanted? = some (headerLength - got.length) := by
        unfold Buffers.wanted? buffers
        rw [List.length_reverse]
        exact Nat.psub_eq_sub (Nat.le_of_lt hshort)
      have hfits : got.length + (bytes.take (min (headerLength - got.length) bytes.length)).length
          ≤ headerLength := by
        rw [List.length_take]
        omega
      rw [← fillHeader_buffers old (hrun _ (by omega)) hfits]
      show Option.map _ (buffers ⟨.inHeader got, old⟩).wanted? = _
      rw [hwanted]
      rfl
  | inPayload got missing =>
      have hmissing : 0 < missing := hr
      refine ⟨min missing bytes.length, by omega, ?_⟩
      have hdifference : OpenFrame.missing? ⟨got.length + missing, got.reverse⟩ = some missing := by
        unfold OpenFrame.missing?
        rw [List.length_reverse, Nat.psub_eq_sub (Nat.le_add_right _ _), Nat.add_sub_cancel_left]
      have hfits : (bytes.take (min missing bytes.length)).length ≤ missing := by
        rw [List.length_take]
        omega
      rw [← fillPayload?_buffers old (hrun _ hmissing) hfits]
      show Option.bind (OpenFrame.missing? ⟨got.length + missing, got.reverse⟩) _ = _
      rw [hdifference]
      rfl
  | poisoned got => cases hp

/-! ## §5. Chunks and scripts. -/

/-- **Passes over a chunk push its bytes.** -/
theorem passes?_buffers {r : FrameReader} (hr : r.IsSound) (hp : r.isPoisoned = false)
    (bytes : List UInt8) :
    r.buffers.passes? bytes = some ((r.pushAll bytes).1, (r.pushAll bytes).2.buffers) := by
  -- by induction on how many bytes are left, since a pass may take any number of them
  induction hn : bytes.length using Nat.strongRecOn generalizing r bytes with
  | ind len ih =>
      rw [Buffers.passes?]
      by_cases hne : bytes = []
      · subst hne
        rfl
      · obtain ⟨n, hpos, hpass⟩ := pass?_buffers hr hp hne
        have hless := length_drop_lt hpos hne
        have hsplit := pushAll_append r (bytes.take n) (bytes.drop n)
        rw [List.take_append_drop] at hsplit
        rw [if_neg hne, hpass, hsplit]
        rcases pushAll_cases hp (bytes.take n) with ⟨r', hpush, hp'⟩ | ⟨header, r', hpush, _⟩
        · have hr' : r'.IsSound := by
            have hsound := isSound_pushAll hr (bytes.take n)
            rw [hpush] at hsound
            exact hsound
          simp only [passOver, hpush, Option.bind_some, if_pos hless]
          exact ih (bytes.drop n).length (hn ▸ hless) hr' hp' (bytes.drop n) rfl
        · simp only [passOver, hpush, Option.bind_some]

/-- **A reader with buffers takes a chunk as any reader does.** -/
theorem feed?_buffers {r : FrameReader} (hr : r.IsSound) (bytes : List UInt8) :
    r.buffers.feed? bytes = some ((r.feed bytes).1, (r.feed bytes).2.buffers) := by
  unfold Buffers.feed?
  rw [poisoned_buffers]
  cases hp : r.isPoisoned with
  | true =>
      rw [feed_of_isPoisoned hp]
      rfl
  | false =>
      rw [feed_eq_pushAll hp]
      exact passes?_buffers hr hp bytes

/-- The same of a script. -/
theorem after?_buffers {r : FrameReader} (hr : r.IsSound) (ops : List Op) :
    r.buffers.after? ops = some (r.after ops).buffers := by
  unfold Buffers.after?
  induction ops generalizing r with
  | nil => rfl
  | cons op ops ih =>
      rw [List.foldlM_cons, after_cons]
      cases op with
      | feed bytes =>
          rw [Buffers.perform?, feed?_buffers hr]
          exact ih (isSound_feed hr bytes)
      | take =>
          rw [Buffers.perform?, take_buffers]
          exact ih (isSound_after hr [.take])

/-- A pass begins with the buffers of a reader at a sound place. -/
theorem exists_of_atHead {s : Buffers} {bytes : List UInt8} (h : s.AtHead bytes) :
    ∃ r : FrameReader, s = r.buffers ∧ r.IsSound ∧ r.isPoisoned = false := by
  induction h with
  | @feed ops s bytes hafter hp =>
      have hs : s = (new.after ops).buffers := by
        rw [show Buffers.new = new.buffers from rfl, after?_buffers isSound_new] at hafter
        exact (Option.some.inj hafter).symm
      subst hs
      rw [poisoned_buffers] at hp
      exact ⟨new.after ops, rfl, isSound_after isSound_new ops, hp⟩
  | @pass s bytes p _ hne hpass hok ih =>
      -- the pass is the one that pushes bytes, and a reader that did not fail is not poisoned
      obtain ⟨r, rfl, hr, hp⟩ := ih
      obtain ⟨n, _, hpass'⟩ := pass?_buffers hr hp hne
      obtain rfl := Option.some.inj (hpass.symm.trans hpass')
      refine ⟨(r.pushAll (bytes.take n)).2, rfl, isSound_pushAll hr _, ?_⟩
      rcases pushAll_cases hp (bytes.take n) with ⟨r', hpush, hp'⟩ | ⟨header, r', hpush, _⟩
      · rw [hpush]
        exact hp'
      · rw [passOver, hpush] at hok
        cases hok

end FrameReader

end LispLink.Wire
