/-
  LispLink.Proofs.Session.Runs
  ────────────────────────────────
  **SESSIONS AS THEY CAN BECOME.**

  A run starts on a fresh connection and goes on with any events in any order:
  the editor sends, gives up waiting and hangs up, and the image sends bytes,
  falls silent and hangs up.  Each event is one step.

      run [e₁, …, eₙ]  =  attached, then the step of e₁, …, then that of eₙ

  Between two steps every frame that has arrived is handled, and a session can
  be written to as long as it is open (`IsSteady`).
-/
import LispLink.Session.Basic
import LispLink.Proofs.Wire.Stream

namespace LispLink.Session

open Reply Wire

/-! ## §1. Events. -/

/-- What can happen to a session. -/
inductive Event where
  | dispatch (form : Value) (package : String) (thread : Thread)
  | sendMessage (message : Value)
  /-- A whole frame with that payload arrives. -/
  | frame (payload : String)
  /-- Bytes arrive in one read. -/
  | read (bytes : List UInt8)
  | answerPings
  /-- The editor stops waiting for the request of that id. -/
  | giveUp (id : UInt64)
  | close
  | endOfStream
  /-- The connection breaks, for the given reason. -/
  | breakDown (reason : String)
  /-- The editor changes how requests are sent. -/
  | configure (timeout : Nat) (package : String) (info : Option ConnectionInfo)
  /-- What was written and noticed is passed on. -/
  | passOn

/-- The session behind an event.  Giving up has no effect: the request stays
pending. -/
def step (s : Session) : Event → Session
  | .dispatch form package thread => (s.dispatch form package thread).2
  | .sendMessage message => (s.sendMessage message).2
  | .frame payload => if s.closed then s else s.handle payload
  | .read bytes => s.receive bytes
  | .answerPings => s.answerPings
  | .giveUp _ => s
  | .close => s.close
  | .endOfStream => s.endOfStream
  | .breakDown reason => s.shutDown (some reason)
  | .configure timeout package info => { s with timeout, package, info }
  | .passOn => s.passOn

/-- The session behind several events. -/
def steps (s : Session) (es : List Event) : Session := es.foldl step s

/-- The session behind events on a fresh connection. -/
def run (es : List Event) : Session := attached.steps es

@[simp] theorem steps_nil (s : Session) : s.steps [] = s := rfl

@[simp] theorem steps_cons (s : Session) (e : Event) (es : List Event) :
    s.steps (e :: es) = (s.step e).steps es := rfl

theorem steps_append (s : Session) (as bs : List Event) :
    s.steps (as ++ bs) = (s.steps as).steps bs := by
  simp [steps]

/-- What holds of every session behind a run holds of the fresh one and is kept
by every step. -/
theorem run_induction {P : Session → Prop} (base : P attached)
    (kept : ∀ s e, P s → P (s.step e)) (es : List Event) : P (run es) := by
  -- the session is general, since the first event changes it
  have hsteps : ∀ s, P s → P (s.steps es) := by
    induction es with
    | nil =>
        intro s hs
        exact hs
    | cons e es ih =>
        intro s hs
        exact ih _ (kept s e hs)
  exact hsteps attached base

/-! ## §2. What a message leaves alone. -/

/-- Whether two sessions are the same as far as the connection goes. -/
structure SameConnection (s s' : Session) : Prop where
  frames : s'.frames = s.frames
  writable : s'.writable = s.writable
  closed : s'.closed = s.closed
  nextId : s'.nextId = s.nextId
  outbox : s'.outbox = s.outbox

theorem sameConnection_resolve (s : Session) (id : UInt64) (o : Outcome) :
    SameConnection s (s.resolve id o) := by
  unfold resolve
  split <;> exact ⟨rfl, rfl, rfl, rfl, rfl⟩

theorem sameConnection_settle (s : Session) (m : Incoming) : SameConnection s (s.settle m) := by
  cases m with
  | answer id status payload => exact sameConnection_resolve s id _
  | invalidRequest id message => exact sameConnection_resolve s id _
  | ping thread tag =>
      show SameConnection s (s.pong thread tag)
      unfold pong
      split <;> exact ⟨rfl, rfl, rfl, rfl, rfl⟩
  | _ => exact ⟨rfl, rfl, rfl, rfl, rfl⟩

/-- **Handling a message does not touch the connection.** -/
theorem sameConnection_handle (s : Session) (payload : String) :
    SameConnection s (s.handle payload) := by
  unfold handle
  split
  · exact ⟨rfl, rfl, rfl, rfl, rfl⟩
  · next m _ =>
      obtain ⟨h1, h2, h3, h4, h5⟩ := sameConnection_settle s m
      exact ⟨h1, h2, h3, h4, h5⟩

theorem closed_handle (s : Session) (payload : String) : (s.handle payload).closed = s.closed :=
  (sameConnection_handle s payload).closed

/-! ## §3. Shutting down. -/

theorem closed_shutDown (s : Session) (failure : Option String) :
    (s.shutDown failure).closed = true := by
  unfold shutDown
  dsimp only
  split
  · assumption
  · rfl

theorem writable_shutDown (s : Session) (failure : Option String) :
    (s.shutDown failure).writable = false := by
  unfold shutDown
  dsimp only
  split <;> rfl

theorem frames_shutDown (s : Session) (failure : Option String) :
    (s.shutDown failure).frames = s.frames := by
  unfold shutDown
  dsimp only
  split <;> rfl

theorem nextId_shutDown (s : Session) (failure : Option String) :
    (s.shutDown failure).nextId = s.nextId := by
  unfold shutDown
  dsimp only
  split <;> rfl

theorem outbox_shutDown (s : Session) (failure : Option String) :
    (s.shutDown failure).outbox = s.outbox := by
  unfold shutDown
  dsimp only
  split <;> rfl

theorem owed_shutDown (s : Session) (failure : Option String) :
    (s.shutDown failure).owed = s.owed := by
  unfold shutDown
  dsimp only
  split <;> rfl

/-- A session that is down stays as it is. -/
theorem shutDown_of_closed {s : Session} (hc : s.closed = true) (hw : s.writable = false)
    (failure : Option String) : s.shutDown failure = s := by
  obtain ⟨frames, writable, closed, nextId, pending, mailbox, outbox, owed, notices, timeout,
    package, info⟩ := s
  cases hc
  cases hw
  rfl

/-! ## §4. Reading. -/

@[simp] theorem handleAll_nil (s : Session) : s.handleAll [] = s := rfl

theorem handleAll_text {bytes : List UInt8} {payload : String}
    (h : Text.ofUtf8? bytes = some payload) (s : Session) (rest : List (List UInt8)) :
    s.handleAll (bytes :: rest) = (s.handle payload).handleAll rest := by
  rw [handleAll, h]

theorem handleAll_noText {bytes : List UInt8} (h : Text.ofUtf8? bytes = none) (s : Session)
    (rest : List (List UInt8)) :
    s.handleAll (bytes :: rest) = s.shutDown (some FrameError.invalidUtf8.message) := by
  rw [handleAll, h]

/-- What messages and the end leave alone, payloads in a row leave alone. -/
theorem handleAll_keeps {α : Type} (f : Session → α)
    (hhandle : ∀ s payload, f (handle s payload) = f s)
    (hdown : ∀ s failure, f (shutDown s failure) = f s)
    (s : Session) (payloads : List (List UInt8)) : f (s.handleAll payloads) = f s := by
  induction payloads generalizing s with
  | nil => rfl
  | cons bytes rest ih =>
      cases h : Text.ofUtf8? bytes with
      | some payload => rw [handleAll_text h, ih, hhandle]
      | none => rw [handleAll_noText h, hdown]

theorem frames_handleAll (s : Session) (payloads : List (List UInt8)) :
    (s.handleAll payloads).frames = s.frames :=
  handleAll_keeps frames (fun s p => (sameConnection_handle s p).frames) frames_shutDown s payloads

/-- Handling payloads writes nothing; what pings are owed is written later. -/
theorem outbox_handleAll (s : Session) (payloads : List (List UInt8)) :
    (s.handleAll payloads).outbox = s.outbox :=
  handleAll_keeps outbox (fun s p => (sameConnection_handle s p).outbox) outbox_shutDown s payloads

theorem nextId_handleAll (s : Session) (payloads : List (List UInt8)) :
    (s.handleAll payloads).nextId = s.nextId :=
  handleAll_keeps nextId (fun s p => (sameConnection_handle s p).nextId) nextId_shutDown s payloads

theorem receive_of_closed {s : Session} (hc : s.closed = true) (bytes : List UInt8) :
    s.receive bytes = s := by
  rw [receive, if_pos hc]

theorem receive_of_open {s : Session} (ho : s.closed = false) (bytes : List UInt8) :
    s.receive bytes = match s.frames.feed bytes with
      | (.error e, frames) => { s with frames }.shutDown (some e.message)
      | (.ok _, frames) =>
        { s with frames := { frames with complete := [] } }.handleAll frames.complete := by
  have hnot : ¬ s.closed = true := by
    rw [ho]
    exact Bool.false_ne_true
  rw [receive]
  exact if_neg hnot

/-- What depends on neither the frame reader nor its payloads is kept by a
read. -/
theorem receive_keeps {α : Type} (f : Session → α)
    (hframes : ∀ (s : Session) (r : FrameReader), f { s with frames := r } = f s)
    (hall : ∀ s payloads, f (handleAll s payloads) = f s)
    (hdown : ∀ s failure, f (shutDown s failure) = f s)
    (s : Session) (bytes : List UInt8) : f (s.receive bytes) = f s := by
  cases hc : s.closed with
  | true => rw [receive_of_closed hc]
  | false =>
      rw [receive_of_open hc]
      cases s.frames.feed bytes with
      | mk result r =>
          cases result with
          | error e => exact (hdown _ _).trans (hframes s r)
          | ok _ => exact (hall _ _).trans (hframes s _)

theorem outbox_receive (s : Session) (bytes : List UInt8) :
    (s.receive bytes).outbox = s.outbox :=
  receive_keeps outbox (fun _ _ => rfl) outbox_handleAll outbox_shutDown s bytes

theorem nextId_receive (s : Session) (bytes : List UInt8) :
    (s.receive bytes).nextId = s.nextId :=
  receive_keeps nextId (fun _ _ => rfl) nextId_handleAll nextId_shutDown s bytes

/-! ## §5. Steady sessions. -/

/-- What holds between two steps: an open session has handled every frame that
has arrived, and only a session that is down cannot be written to. -/
structure IsSteady (s : Session) : Prop where
  writable : s.writable = !s.closed
  drained : s.closed = false → s.frames.complete = []
  sound : s.closed = false → s.frames.isPoisoned = false

theorem writable_of_open {s : Session} (h : s.IsSteady) (ho : s.closed = false) :
    s.writable = true := by
  rw [h.writable, ho]
  rfl

theorem writable_of_closed {s : Session} (h : s.IsSteady) (hc : s.closed = true) :
    s.writable = false := by
  rw [h.writable, hc]
  rfl

theorem isSteady_attached : attached.IsSteady := ⟨rfl, fun _ => rfl, fun _ => rfl⟩

theorem isSteady_of_closed {s : Session} (hc : s.closed = true) (hw : s.writable = false) :
    s.IsSteady :=
  ⟨by rw [hc, hw]; rfl, fun h => absurd (hc.symm.trans h) (by decide),
    fun h => absurd (hc.symm.trans h) (by decide)⟩

theorem isSteady_shutDown (s : Session) (failure : Option String) :
    (s.shutDown failure).IsSteady :=
  isSteady_of_closed (closed_shutDown s failure) (writable_shutDown s failure)

theorem isSteady_of_same {s s' : Session} (h : s.IsSteady) (hframes : s'.frames = s.frames)
    (hwritable : s'.writable = s.writable) (hclosed : s'.closed = s.closed) : s'.IsSteady := by
  constructor
  · rw [hwritable, hclosed]
    exact h.writable
  · rw [hclosed, hframes]
    exact h.drained
  · rw [hclosed, hframes]
    exact h.sound

theorem isSteady_answerPings {s : Session} (h : s.IsSteady) : s.answerPings.IsSteady :=
  isSteady_of_same h rfl rfl rfl

theorem isSteady_handle {s : Session} (h : s.IsSteady) (payload : String) :
    (s.handle payload).IsSteady :=
  let hsame := sameConnection_handle s payload
  isSteady_of_same h hsame.frames hsame.writable hsame.closed

theorem isSteady_handleAll {s : Session} (h : s.IsSteady) (payloads : List (List UInt8)) :
    (s.handleAll payloads).IsSteady := by
  induction payloads generalizing s with
  | nil => exact h
  | cons bytes rest ih =>
      cases htext : Text.ofUtf8? bytes with
      | some payload =>
          rw [handleAll_text htext]
          exact ih (isSteady_handle h payload)
      | none =>
          rw [handleAll_noText htext]
          exact isSteady_shutDown s _

/-- What a read does to an open steady session, good header or bad. -/
theorem receive_cases {s : Session} (h : s.IsSteady) (ho : s.closed = false)
    (bytes : List UInt8) :
    (∃ r, s.frames.pushAll bytes = (.ok (), r) ∧ r.isPoisoned = false
        ∧ s.receive bytes
            = { s with frames := { r with complete := [] } }.handleAll r.complete) ∨
      ∃ header r, s.frames.pushAll bytes = (.error (.invalidHeader header), r)
        ∧ s.receive bytes = { s with frames := r }.shutDown
            (some (FrameError.invalidHeader header).message) := by
  have hsound := h.sound ho
  rw [receive_of_open ho, FrameReader.feed_eq_pushAll hsound]
  rcases FrameReader.pushAll_cases hsound bytes with ⟨r, hpush, hr⟩ | ⟨header, r, hpush, _⟩
  · left
    refine ⟨r, hpush, hr, ?_⟩
    rw [hpush]
  · right
    refine ⟨header, r, hpush, ?_⟩
    rw [hpush]

theorem isSteady_receive {s : Session} (h : s.IsSteady) (bytes : List UInt8) :
    (s.receive bytes).IsSteady := by
  cases hc : s.closed with
  | true =>
      rw [receive_of_closed hc]
      exact h
  | false =>
      rcases receive_cases h hc bytes with ⟨r, _, hr, hreceive⟩ | ⟨header, r, _, hreceive⟩
      · have hread : Session.IsSteady { s with frames := { r with complete := [] } } :=
          ⟨h.writable, fun _ => rfl, fun _ => hr⟩
        rw [hreceive]
        exact isSteady_handleAll hread r.complete
      · rw [hreceive]
        exact isSteady_shutDown _ _

/-! ## §6. Sending. -/

theorem dispatch_of_closed {s : Session} (hc : s.closed = true) (form : Value)
    (package : String) (thread : Thread) :
    s.dispatch form package thread = (.error .closed, s) := by
  rw [dispatch, if_pos hc]

/-- An open session spends an id on a request; if it can be encoded, it is
pending and written. -/
theorem dispatch_of_open {s : Session} (h : s.IsSteady) (ho : s.closed = false)
    (form : Value) (package : String) (thread : Thread) :
    s.dispatch form package thread =
      match encodeRequest s.nextId form package thread with
      | .error e => (.error (.encode e), { s with nextId := s.nextId + 1 })
      | .ok framed =>
        (.ok ⟨s.nextId, s.timeout⟩,
          { s with
            nextId := s.nextId + 1
            pending := s.pending ++ [s.nextId]
            outbox := s.outbox ++ [framed] }) := by
  have hw := h.writable
  obtain ⟨frames, writable, closed, nextId, pending, mailbox, outbox, owed, notices, timeout,
    package', info⟩ := s
  cases ho
  cases hw
  -- an open session can be written to, so writing does not fail
  unfold dispatch
  dsimp only
  rw [if_neg Bool.false_ne_true]
  cases encodeRequest nextId form package thread <;> rfl

theorem isSteady_dispatch {s : Session} (h : s.IsSteady) (form : Value) (package : String)
    (thread : Thread) : (s.dispatch form package thread).2.IsSteady := by
  cases hc : s.closed with
  | true =>
      rw [dispatch_of_closed hc]
      exact h
  | false =>
      rw [dispatch_of_open h hc]
      cases encodeRequest s.nextId form package thread <;> exact isSteady_of_same h rfl rfl rfl

/-- Sending a message without an answer can only add to what is written. -/
theorem sendMessage_eq (s : Session) (message : Value) :
    ∃ outbox, (s.sendMessage message).2 = { s with outbox := outbox } := by
  unfold sendMessage write
  split
  · exact ⟨s.outbox, rfl⟩
  · split
    · exact ⟨s.outbox, rfl⟩
    · next framed _ =>
        by_cases hw : s.writable = true
        · rw [if_pos hw]
          exact ⟨s.outbox ++ [framed], rfl⟩
        · rw [if_neg hw]
          exact ⟨s.outbox, rfl⟩

/-- **Every step keeps a session steady.** -/
theorem isSteady_step {s : Session} (h : s.IsSteady) (e : Event) : (s.step e).IsSteady := by
  cases e with
  | dispatch form package thread => exact isSteady_dispatch h form package thread
  | sendMessage message =>
      obtain ⟨outbox, hsend⟩ := sendMessage_eq s message
      rw [step, hsend]
      exact isSteady_of_same h rfl rfl rfl
  | frame payload =>
      show (if s.closed then s else s.handle payload).IsSteady
      split
      · exact h
      · exact isSteady_handle h payload
  | read bytes => exact isSteady_receive h bytes
  | answerPings => exact isSteady_answerPings h
  | giveUp id => exact h
  | close => exact isSteady_shutDown s none
  | endOfStream =>
      show s.endOfStream.IsSteady
      unfold endOfStream
      split
      · exact h
      · exact isSteady_shutDown s none
  | breakDown reason => exact isSteady_shutDown s (some reason)
  | configure timeout package info => exact isSteady_of_same h rfl rfl rfl
  | passOn => exact isSteady_of_same h rfl rfl rfl

theorem isSteady_run (es : List Event) : (run es).IsSteady :=
  run_induction isSteady_attached (fun _ e h => isSteady_step h e) es

end LispLink.Session
