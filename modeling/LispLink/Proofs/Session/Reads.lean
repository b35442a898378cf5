/-
  LispLink.Proofs.Session.Reads
  ────────────────────────────────
  **READS IN A ROW.**

  A connection may hand over its bytes in any pieces.  What a session should
  make of them does not depend on the pieces: every complete frame is handled in
  order, and then, if a bad header follows, the session goes down
  (`readThrough`).

      reads [c₁, …, cₙ]  =  handle some frames, lose the others, go down
      readThrough bytes  =  handle all frames, go down

  Frames are lost only if the read that completes them brings the bad header as
  well.  What the session has written so far, what it owes and where it is in
  the stream make no difference to how frames are handled (`shift`).
-/
import LispLink.Proofs.Session.Runs

namespace LispLink.Session

open Wire

/-! ## §1. What handling does not look at. -/

/-- A session at another place in the stream, with more frames written and more
answers owed before its own. -/
def shift (s : Session) (f : FrameReader) (written owed : List String) : Session :=
  { s with frames := f, outbox := written ++ s.outbox, owed := owed ++ s.owed }

section

variable (s : Session) (f : FrameReader) (written owed : List String)

theorem resolve_shift (id : UInt64) (o : Outcome) :
    (s.shift f written owed).resolve id o = (s.resolve id o).shift f written owed := by
  unfold resolve
  show (if id ∈ s.pending then _ else _) = _
  split <;> rfl

theorem pong_shift (thread tag : Value) :
    (s.shift f written owed).pong thread tag = (s.pong thread tag).shift f written owed := by
  unfold pong
  split
  · rfl
  · next framed _ =>
      unfold shift
      dsimp only
      rw [List.append_assoc]

theorem settle_shift (m : Incoming) :
    (s.shift f written owed).settle m = (s.settle m).shift f written owed := by
  cases m with
  | answer id status payload => exact resolve_shift s f written owed id _
  | invalidRequest id message => exact resolve_shift s f written owed id _
  | ping thread tag => exact pong_shift s f written owed thread tag
  | _ => rfl

theorem handle_shift (payload : String) :
    (s.shift f written owed).handle payload = (s.handle payload).shift f written owed := by
  unfold handle
  cases Incoming.ofPayload? payload with
  | none => rfl
  | some m =>
      show ((s.shift f written owed).settle m).notify _ = ((s.settle m).notify _).shift _ _ _
      rw [settle_shift]
      rfl

theorem shutDown_shift (failure : Option String) :
    (s.shift f written owed).shutDown failure
      = (s.shutDown failure).shift f written owed := by
  unfold shutDown
  show (if s.closed then _ else _) = (if s.closed then _ else _ : Session).shift f written owed
  split <;> rfl

theorem handleAll_shift (payloads : List (List UInt8)) :
    (s.shift f written owed).handleAll payloads
      = (s.handleAll payloads).shift f written owed := by
  induction payloads generalizing s with
  | nil => rfl
  | cons bytes rest ih =>
      cases h : Text.ofUtf8? bytes with
      | some payload => rw [handleAll_text h, handleAll_text h, handle_shift, ih]
      | none => rw [handleAll_noText h, handleAll_noText h, shutDown_shift]

end

/-- A session without its place in the stream. -/
def forget (s : Session) : Session := { s with frames := .new }

theorem closed_of_forget {s s' : Session} (h : s.forget = s'.forget) : s.closed = s'.closed := by
  have hclosed : s.forget.closed = s'.forget.closed := by rw [h]
  exact hclosed

theorem owed_of_forget {s s' : Session} (h : s.forget = s'.forget) : s.owed = s'.owed := by
  have howed : s.forget.owed = s'.forget.owed := by rw [h]
  exact howed

theorem forget_handleAll (s : Session) (payloads : List (List UInt8)) :
    (s.handleAll payloads).forget = s.forget.handleAll payloads :=
  (handleAll_shift s .new [] [] payloads).symm

theorem forget_shutDown (s : Session) (failure : Option String) :
    (s.shutDown failure).forget = s.forget.shutDown failure :=
  (shutDown_shift s .new [] [] failure).symm

/-! ## §2. What reading does not look at. -/

/-- A session with more frames written and more answers owed before its own. -/
def carry (s : Session) (written owed : List String) : Session :=
  { s with outbox := written ++ s.outbox, owed := owed ++ s.owed }

/-- A session that has written nothing and owes nothing. -/
def free (s : Session) : Session := { s with outbox := [], owed := [] }

theorem carry_free (s : Session) : s.free.carry s.outbox s.owed = s := by
  unfold carry free
  dsimp only
  rw [List.append_nil, List.append_nil]

theorem shift_of_frames {s : Session} {f : FrameReader} (hf : s.frames = f)
    (written owed : List String) : s.shift f written owed = s.carry written owed := by
  subst hf
  rfl

theorem receive_carry (s : Session) (written owed : List String) (bytes : List UInt8) :
    (s.carry written owed).receive bytes = (s.receive bytes).carry written owed := by
  cases hc : s.closed with
  | true => rw [receive_of_closed hc, receive_of_closed (s := s.carry written owed) hc]
  | false =>
      have hframes : (s.carry written owed).frames = s.frames := rfl
      rw [receive_of_open hc, receive_of_open (s := s.carry written owed) hc, hframes]
      cases s.frames.feed bytes with
      | mk result f =>
          cases result with
          | error e =>
              let t : Session := { s with frames := f }
              show (t.shift f written owed).shutDown _ = (t.shutDown _).carry written owed
              rw [shutDown_shift, shift_of_frames (frames_shutDown t _)]
          | ok _ =>
              let t : Session := { s with frames := { f with complete := [] } }
              show (t.shift t.frames written owed).handleAll _
                = (t.handleAll _).carry written owed
              rw [handleAll_shift, shift_of_frames (frames_handleAll t _)]

/-! ## §3. Reads. -/

/-- The session behind several reads in a row. -/
def reads (s : Session) (chunks : List (List UInt8)) : Session := chunks.foldl receive s

@[simp] theorem reads_nil (s : Session) : s.reads [] = s := rfl

@[simp] theorem reads_cons (s : Session) (c : List UInt8) (cs : List (List UInt8)) :
    s.reads (c :: cs) = (s.receive c).reads cs := rfl

theorem reads_of_closed {s : Session} (hc : s.closed = true) (chunks : List (List UInt8)) :
    s.reads chunks = s := by
  induction chunks with
  | nil => rfl
  | cons c cs ih => rw [reads_cons, receive_of_closed hc, ih]

theorem isSteady_reads {s : Session} (h : s.IsSteady) (chunks : List (List UInt8)) :
    (s.reads chunks).IsSteady := by
  induction chunks generalizing s with
  | nil => exact h
  | cons c cs ih => exact ih (isSteady_receive h c)

theorem reads_carry (s : Session) (written owed : List String) (chunks : List (List UInt8)) :
    (s.carry written owed).reads chunks = (s.reads chunks).carry written owed := by
  induction chunks generalizing s with
  | nil => rfl
  | cons c cs ih => rw [reads_cons, reads_cons, receive_carry, ih]

theorem reads_free (s : Session) (chunks : List (List UInt8)) :
    s.reads chunks = (s.free.reads chunks).carry s.outbox s.owed := by
  rw [← reads_carry, carry_free]

/-- A session that owed more answers still owes them behind the reads. -/
theorem owed_reads (s : Session) (chunks : List (List UInt8)) :
    (s.reads chunks).owed = s.owed ++ (s.free.reads chunks).owed :=
  congrArg Session.owed (reads_free s chunks)

/-- Reading writes nothing. -/
theorem outbox_reads (s : Session) (chunks : List (List UInt8)) :
    (s.reads chunks).outbox = s.outbox := by
  induction chunks generalizing s with
  | nil => rfl
  | cons c cs ih => rw [reads_cons, ih, outbox_receive]

/-! ## §4. What reads amount to. -/

/-- The session behind bytes of which every complete frame is handled, also those
before a bad header. -/
def readThrough (s : Session) (bytes : List UInt8) : Session :=
  match s.frames.pushAll bytes with
  | (.ok _, r) => { s with frames := { r with complete := [] } }.handleAll r.complete
  | (.error e, r) => ({ s with frames := r }.handleAll r.complete).shutDown (some e.message)

theorem forget_readThrough_ok {s : Session} {bytes : List UInt8} {r : FrameReader}
    (hpush : s.frames.pushAll bytes = (.ok (), r)) :
    (s.readThrough bytes).forget = s.forget.handleAll r.complete := by
  rw [readThrough, hpush]
  exact forget_handleAll _ _

theorem forget_readThrough_error {s : Session} {bytes : List UInt8} {r : FrameReader}
    {e : FrameError} (hpush : s.frames.pushAll bytes = (.error e, r)) :
    (s.readThrough bytes).forget = (s.forget.handleAll r.complete).shutDown (some e.message) := by
  rw [readThrough, hpush]
  show Session.forget (Session.shutDown _ _) = _
  rw [forget_shutDown, forget_handleAll]
  rfl

/-- Handling payloads keeps an open session up or shuts it down for good. -/
theorem handleAll_append (s : Session) (ho : s.closed = false) (as bs : List (List UInt8)) :
    s.handleAll (as ++ bs) =
      if (s.handleAll as).closed then s.handleAll as else (s.handleAll as).handleAll bs := by
  induction as generalizing s with
  | nil =>
      rw [handleAll_nil, ho]
      rfl
  | cons a as ih =>
      rw [List.cons_append]
      cases h : Text.ofUtf8? a with
      | some payload =>
          rw [handleAll_text h, handleAll_text h]
          exact ih (s.handle payload) ((closed_handle s payload).trans ho)
      | none =>
          rw [handleAll_noText h, handleAll_noText h, closed_shutDown]
          rfl

/-- A read that brings a bad header loses the frames that it completes, and a
read of one byte completes none. -/
theorem complete_of_short {r r' : FrameReader} {e : FrameError} {c : List UInt8}
    (hr : r.isPoisoned = false) (hempty : r.complete = []) (hshort : c.length ≤ 1)
    (hpush : r.pushAll c = (.error e, r')) : r'.complete = [] := by
  match c, hshort with
  | [], _ =>
      rw [FrameReader.pushAll_nil] at hpush
      cases hpush
  | [b], _ =>
      rw [FrameReader.pushAll_cons] at hpush
      rcases FrameReader.push_cases hr b with ⟨r₁, hb, _⟩ | ⟨header, _, hb⟩
      · rw [hb] at hpush
        cases hpush
      · rw [hb] at hpush
        cases hpush
        exact hempty

/-- What reads in a row may amount to, if the bytes in one go do `x` to the reader
of `s`: without a bad header every frame is handled; with one, some first frames
are, and the session goes down.  No frame is lost if `whole`. -/
def AmountsTo (s : Session) (whole : Prop) (x : Except FrameError Unit × FrameReader)
    (s' : Session) : Prop :=
  match x with
  | (.ok _, r) => s'.forget = s.forget.handleAll r.complete
  | (.error e, r) =>
    ∃ handled lost, r.complete = handled ++ lost ∧ (whole → lost = [])
      ∧ s'.forget = (s.forget.handleAll handled).shutDown (some e.message)

section

variable {s s₁ s' : Session} {done : List (List UInt8)} {whole whole₁ : Prop}
  {x : Except FrameError Unit × FrameReader}

/-- Frames that a read completes come before those of the later reads. -/
theorem amountsTo_prepend (ho : s.closed = false) (ho₁ : s₁.closed = false)
    (hdone : s₁.forget = s.forget.handleAll done) (hwhole : whole → whole₁)
    (h : AmountsTo s₁ whole₁ x s') :
    AmountsTo s whole (FrameReader.prepend done x) s' := by
  have hall : ∀ new, s.forget.handleAll (done ++ new) = s₁.forget.handleAll new := by
    intro new
    have hopen : (s.forget.handleAll done).closed = false := by
      rw [← hdone]
      exact ho₁
    rw [handleAll_append s.forget ho, hopen, hdone]
    rfl
  obtain ⟨result, r⟩ := x
  cases result with
  | ok _ => exact h.trans (hall r.complete).symm
  | error e =>
      obtain ⟨handled, lost, hsplit, hnone, hdown⟩ := h
      refine ⟨done ++ handled, lost, ?_, fun h => hnone (hwhole h), ?_⟩
      · show done ++ r.complete = _
        rw [hsplit, List.append_assoc]
      · rw [hdown, hall]

/-- A payload that is no text ends the session, whatever comes behind it. -/
theorem amountsTo_of_closed (ho : s.closed = false) (h₁ : s₁.IsSteady)
    (hc : s₁.closed = true) (hdone : s₁.forget = s.forget.handleAll done) :
    AmountsTo s whole (FrameReader.prepend done x) s₁ := by
  have hall : ∀ new, s.forget.handleAll (done ++ new) = s₁.forget := by
    intro new
    have hclosed : (s.forget.handleAll done).closed = true := by
      rw [← hdone]
      exact hc
    rw [handleAll_append s.forget ho, hclosed, hdone]
    rfl
  obtain ⟨result, r⟩ := x
  cases result with
  | ok _ => exact (hall r.complete).symm
  | error e =>
      refine ⟨done ++ r.complete, [], (List.append_nil _).symm, fun _ => rfl, ?_⟩
      have hwritable : s₁.writable = false := writable_of_closed h₁ hc
      rw [hall, shutDown_of_closed (s := s₁.forget) hc hwritable]

end

/-- **What reads amount to.**  Reads of one byte lose nothing. -/
theorem reads_amountsTo {s : Session} (h : s.IsSteady) (ho : s.closed = false)
    (chunks : List (List UInt8)) :
    AmountsTo s (∀ c ∈ chunks, c.length ≤ 1) (s.frames.pushAll chunks.flatten)
      (s.reads chunks) := by
  -- on the reads, from any open session: the first leaves one that is open, or one
  -- that no other read can change
  induction chunks generalizing s with
  | nil =>
      show s.forget = s.forget.handleAll s.frames.complete
      rw [h.drained ho, handleAll_nil]
  | cons c cs ih =>
      rw [List.flatten_cons, FrameReader.pushAll_append, reads_cons]
      have hsteady := isSteady_receive h c
      rcases receive_cases h ho c with ⟨r, hpush, _, hreceive⟩ | ⟨header, r, hpush, hreceive⟩
      · have hframes : (s.receive c).frames = ⟨r.phase, []⟩ := by
          rw [hreceive, frames_handleAll]
        have hdone : (s.receive c).forget = s.forget.handleAll r.complete := by
          rw [hreceive, forget_handleAll]
          rfl
        rw [hpush]
        show AmountsTo s _ (r.pushAll cs.flatten) _
        rw [FrameReader.pushAll_eq, ← hframes]
        cases hc : (s.receive c).closed with
        | true =>
            rw [reads_of_closed hc]
            exact amountsTo_of_closed ho hsteady hc hdone
        | false =>
            have hwhole : (∀ d ∈ c :: cs, d.length ≤ 1) → ∀ d ∈ cs, d.length ≤ 1 :=
              fun hall d hd => hall d (List.mem_cons_of_mem c hd)
            have hrest := amountsTo_prepend ho hc hdone hwhole (ih hsteady hc)
            rw [hframes] at hrest ⊢
            exact hrest
      · have hdown : (s.receive c).closed = true := by
          rw [hreceive]
          exact closed_shutDown _ _
        rw [hpush, reads_of_closed hdown]
        refine ⟨[], r.complete, rfl, ?_, ?_⟩
        · intro hall
          exact complete_of_short (h.sound ho) (h.drained ho) (hall c List.mem_cons_self) hpush
        · rw [hreceive, forget_shutDown]
          rfl

/-- Read byte by byte, a stream has all its complete frames handled. -/
theorem forget_reads_bytes {s : Session} (h : s.IsSteady) (ho : s.closed = false)
    (bytes : List UInt8) :
    (s.reads (bytes.map fun b => [b])).forget = (s.readThrough bytes).forget := by
  have hflatten : (bytes.map fun b => [b]).flatten = bytes := List.flatMap_singleton' bytes
  have hwhole : ∀ c ∈ bytes.map fun b => [b], c.length ≤ 1 := by
    intro c hc
    obtain ⟨b, _, rfl⟩ := List.mem_map.1 hc
    exact Nat.le_refl 1
  have hreads := reads_amountsTo h ho (bytes.map fun b => [b])
  rw [hflatten] at hreads
  cases hpush : s.frames.pushAll bytes with
  | mk result r =>
      rw [hpush] at hreads
      cases result with
      | ok _ => exact hreads.trans (forget_readThrough_ok hpush).symm
      | error e =>
          obtain ⟨handled, lost, hsplit, hnone, hdown⟩ := hreads
          rw [hnone hwhole, List.append_nil] at hsplit
          rw [hdown, forget_readThrough_error hpush, hsplit]

end LispLink.Session
