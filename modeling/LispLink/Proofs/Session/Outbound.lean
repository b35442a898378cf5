/-
  LispLink.Proofs.Session.Outbound
  ────────────────────────────────
  **THE STREAM TO THE IMAGE IS WHOLE.**

  A session sends three kinds of things over one connection: requests, messages
  without an answer, and the pongs that pings are owed.  Every run has a log of
  them, and the bytes written are the frames of the log and nothing else
  (`IsLog`):

      requests of the log  =  the dispatches that returned a handle
      messages of the log  =  the messages that were sent
      pongs of the log     =  the pings handled, but for those still owed

  What fails leaves nothing in the stream, so the image finds every payload where
  the one before it ends.  A ping has no effect but the pong, and the pong brings
  back what the ping brought.
-/
import LispLink.Proofs.Session.Ending
import LispLink.Proofs.Value.Normal
import LispLink.Proofs.Wire.Messages
import LispLink.Proofs.Wire.RoundTrip

namespace LispLink.Session

open Source Wire

/-! ## §1. What is sent. -/

/-- Something that a session sends. -/
inductive Sent where
  /-- A request, under its id. -/
  | request (id : UInt64) (form : Value) (package : String) (thread : Thread)
  /-- A message that has no answer. -/
  | message (v : Value)
  /-- The answer to a ping. -/
  | pong (thread tag : Value)

namespace Sent

/-- The three kinds of things that a session sends. -/
inductive Kind where
  | request
  | message
  | pong
  deriving DecidableEq, Repr

def kind : Sent → Kind
  | request .. => .request
  | message _ => .message
  | pong .. => .pong

/-- What a request names its thread. -/
def threadName : Thread → Value
  | .any => .t
  | .repl => .keyword "repl-thread"
  | .id n => .int n

/-- What is sent, as a value. -/
def value : Sent → Value
  | request id form package thread =>
    .list [.keyword "emacs-rex", form, .str package, threadName thread,
      .int (Int64.ofNat id.toNat)]
  | message v => v
  | pong thread tag => .list [.keyword "emacs-pong", thread, tag]

def payload (x : Sent) : String := x.value.encode

def framed (x : Sent) : Except EncodeError String := frame x.payload

theorem value_request (id : UInt64) (form : Value) (package : String) (thread : Thread) :
    (request id form package thread).value = requestMessage id form package thread := by
  cases thread <;> rfl

/-- Whether a frame can hold it. -/
def fits (x : Sent) : Bool := x.payload.utf8ByteSize ≤ maxPayload

/-- The id of a request. -/
def id? : Sent → Option UInt64
  | request id .. => some id
  | _ => none

/-- What is of one kind, in order. -/
def ofKind (k : Kind) (xs : List Sent) : List Sent := xs.filter (·.kind = k)

theorem ofKind_append (k : Kind) (xs ys : List Sent) :
    ofKind k (xs ++ ys) = ofKind k xs ++ ofKind k ys := by
  rw [ofKind, List.filter_append]
  rfl

theorem ofKind_of_all {k : Kind} {xs : List Sent} (h : ∀ x ∈ xs, x.kind = k) (k' : Kind) :
    ofKind k' xs = if k = k' then xs else [] := by
  unfold ofKind
  split
  · next heq => exact List.filter_eq_self.2 fun x hx => decide_eq_true ((h x hx).trans heq)
  · next hne =>
      refine List.filter_eq_nil_iff.2 fun x hx hkind => hne ?_
      rw [← h x hx, of_decide_eq_true hkind]

end Sent

/-- The pong that a payload is owed: the one that it asks for, if that is a ping whose
pong fits a frame. -/
def pongsFor (payload : String) : List Sent :=
  match Incoming.ofPayload? payload with
  | some (.ping thread tag) => [Sent.pong thread tag].filter Sent.fits
  | _ => []

theorem kind_of_mem_pongsFor {payload : String} {x : Sent} (h : x ∈ pongsFor payload) :
    x.kind = .pong := by
  unfold pongsFor at h
  split at h
  · rw [List.mem_singleton.1 (List.mem_filter.1 h).1]
    rfl
  · cases h

section

variable (s : Session)

/-- The request that an event sends: that of a dispatch that returns a handle. -/
def asked : Event → List Sent
  | .dispatch form package thread =>
    match (s.dispatch form package thread).1 with
    | .ok h => [.request h.id form package thread]
    | .error _ => []
  | _ => []

/-- The message that an event sends, if it succeeds. -/
def messaged : Event → List Sent
  | .sendMessage v =>
    match (s.sendMessage v).1 with
    | .ok _ => [.message v]
    | .error _ => []
  | _ => []

/-- The pongs for the pings that are handled with an event. -/
def pinged (e : Event) : List Sent := if s.closed then [] else (s.ahead e).flatMap pongsFor

theorem kind_of_mem_asked {e : Event} : ∀ x ∈ s.asked e, x.kind = .request := by
  intro x hx
  cases e with
  | dispatch form package thread =>
      unfold asked at hx
      dsimp only at hx
      split at hx
      · rw [List.mem_singleton.1 hx]
        rfl
      · cases hx
  | _ => cases hx

theorem kind_of_mem_messaged {e : Event} : ∀ x ∈ s.messaged e, x.kind = .message := by
  intro x hx
  cases e with
  | sendMessage v =>
      unfold messaged at hx
      dsimp only at hx
      split at hx
      · rw [List.mem_singleton.1 hx]
        rfl
      · cases hx
  | _ => cases hx

theorem kind_of_mem_pinged {e : Event} : ∀ x ∈ s.pinged e, x.kind = .pong := by
  intro x hx
  unfold pinged at hx
  split at hx
  · cases hx
  · obtain ⟨p, _, hp⟩ := List.mem_flatMap.1 hx
    exact kind_of_mem_pongsFor hp

end

/-- Whether these are the frames of what is sent, in order. -/
def AreFrames (xs : List Sent) (frames : List String) : Prop :=
  xs.map Sent.framed = frames.map .ok

/-- What is sent stands behind the headers of the frames. -/
theorem payloads_of_areFrames {xs : List Sent} {fs : List String} (h : AreFrames xs fs) :
    xs.map Sent.payload = fs.map behindHeader := by
  induction xs generalizing fs with
  | nil =>
      obtain rfl := List.map_eq_nil_iff.1 h.symm
      rfl
  | cons x xs ih =>
      cases fs with
      | nil => cases h
      | cons f fs =>
          obtain ⟨hx, hxs⟩ := List.cons.inj h
          rw [List.map_cons, List.map_cons, ih hxs, behindHeader_framed hx]

theorem areFrames_append {xs ys : List Sent} {fs gs : List String} (hx : AreFrames xs fs)
    (hy : AreFrames ys gs) : AreFrames (xs ++ ys) (fs ++ gs) := by
  unfold AreFrames at *
  rw [List.map_append, List.map_append, hx, hy]

/-! ## §2. One event. -/

section

variable {s : Session} {e : Event}

theorem writes_of_append {fs : List String} (h : (s.step e).outbox = s.outbox ++ fs) :
    s.writes e = fs := by
  rw [writes, h, List.drop_left]

theorem writes_of_same (h : (s.step e).outbox = s.outbox) : s.writes e = [] :=
  writes_of_append (by rw [h, List.append_nil])

/-- An open session sends a message unless it fits no frame. -/
theorem sendMessage_of_open (h : s.IsSteady) (ho : s.closed = false) (v : Value) :
    s.sendMessage v =
      match encodeMessage v with
      | .error e => (.error (.encode e), s)
      | .ok framed => (.ok (), { s with outbox := s.outbox ++ [framed] }) := by
  have hw := writable_of_open h ho
  unfold sendMessage write
  rw [if_neg (by rw [ho]; exact Bool.false_ne_true)]
  cases encodeMessage v with
  | error e => rfl
  | ok framed =>
      dsimp only
      rw [if_pos hw]

/-- A ping has no effect but that its pong is owed, if that fits a frame. -/
theorem pong_owes (s : Session) (thread tag : Value) :
    ∃ fs, AreFrames ([Sent.pong thread tag].filter Sent.fits) fs
      ∧ s.pong thread tag = { s with owed := s.owed ++ fs } := by
  have hencode : encodeMessage (.list [.keyword "emacs-pong", thread, tag])
      = (Sent.pong thread tag).framed := rfl
  unfold pong
  rw [hencode]
  cases hframed : (Sent.pong thread tag).framed with
  | error e =>
      -- the only reason not to be framed is not to fit
      have hlong := ((frame_eq_error_iff _ e).1 hframed).1
      have hnot : ¬ (Sent.pong thread tag).fits = true := by
        intro hfits
        exact absurd (of_decide_eq_true hfits) (Nat.not_le.2 hlong)
      refine ⟨[], ?_, ?_⟩
      · rw [List.filter_cons_of_neg hnot]
        rfl
      · rw [List.append_nil]
  | ok framed =>
      have hfits : (Sent.pong thread tag).fits = true := decide_eq_true (frame_eq_ok hframed).1
      refine ⟨[framed], ?_, rfl⟩
      rw [List.filter_cons_of_pos hfits, List.filter_nil]
      exact congrArg (fun x => [x]) hframed

theorem handle_of_isPing {payload : String} {thread tag : Value}
    (h : IsMessage payload (.ping thread tag)) (s : Session) :
    ∃ fs, AreFrames (pongsFor payload) fs ∧ s.handle payload = { s with owed := s.owed ++ fs } := by
  obtain ⟨fs, hfs, hpong⟩ := pong_owes s thread tag
  refine ⟨fs, ?_, ?_⟩
  · rw [pongsFor, Incoming.ofPayload?_eq_some_iff.2 h]
    exact hfs
  · rw [handle, Incoming.ofPayload?_eq_some_iff.2 h]
    show (s.pong thread tag).notify none = _
    rw [hpong, notify, Option.toList_none, List.append_nil]

/-- Handling a payload adds its pong to what is owed, and nothing else. -/
theorem owed_handle (s : Session) (payload : String) :
    ∃ fs, AreFrames (pongsFor payload) fs ∧ (s.handle payload).owed = s.owed ++ fs := by
  have hresolve : ∀ id o, (s.resolve id o).owed = s.owed := by
    intro id o
    unfold resolve
    split <;> rfl
  cases hread : Incoming.ofPayload? payload with
  | none =>
      rw [pongsFor, handle, hread]
      exact ⟨[], rfl, (List.append_nil _).symm⟩
  | some m =>
      cases m with
      | ping thread tag =>
          have hping := Incoming.ofPayload?_eq_some_iff.1 hread
          obtain ⟨fs, hfs, hhandle⟩ := handle_of_isPing hping s
          exact ⟨fs, hfs, by rw [hhandle]⟩
      | answer id status v =>
          rw [pongsFor, handle, hread]
          exact ⟨[], rfl, (hresolve id _).trans (List.append_nil _).symm⟩
      | invalidRequest id text =>
          rw [pongsFor, handle, hread]
          exact ⟨[], rfl, (hresolve id _).trans (List.append_nil _).symm⟩
      | _ =>
          rw [pongsFor, handle, hread]
          exact ⟨[], rfl, (List.append_nil _).symm⟩

theorem owed_handleTexts (s : Session) (payloads : List String) :
    ∃ fs, AreFrames (payloads.flatMap pongsFor) fs
      ∧ (s.handleTexts payloads).owed = s.owed ++ fs := by
  induction payloads generalizing s with
  | nil => exact ⟨[], rfl, (List.append_nil _).symm⟩
  | cons p ps ih =>
      obtain ⟨fs, hfs, hp⟩ := owed_handle s p
      obtain ⟨gs, hgs, hps⟩ := ih (s.handle p)
      refine ⟨fs ++ gs, areFrames_append hfs hgs, ?_⟩
      rw [← List.append_assoc, ← hp]
      exact hps

/-- What an event does to the stream, unless it answers pings. -/
structure Sends (s : Session) (e : Event) : Prop where
  /-- It writes the frames of what it sends. -/
  written : AreFrames (s.asked e ++ s.messaged e) (s.writes e)
  /-- It takes nothing back that was written, unless it passes it on. -/
  outbox : e ≠ .passOn → (s.step e).outbox = s.outbox ++ s.writes e
  /-- It owes the frames of the pongs for what it handles. -/
  owed : ∃ fs, AreFrames (s.pinged e) fs ∧ (s.step e).owed = s.owed ++ fs

/-- What writes nothing and brings texts. -/
theorem sends_of_texts (hasked : s.asked e = []) (hmessaged : s.messaged e = [])
    (houtbox : (s.step e).outbox = s.outbox)
    (howed : ∃ fs, AreFrames (s.pinged e) fs ∧ (s.step e).owed = s.owed ++ fs) :
    s.Sends e := by
  refine ⟨?_, fun _ => ?_, howed⟩ <;> rw [writes_of_same houtbox]
  · rw [hasked, hmessaged]
    rfl
  · rw [houtbox, List.append_nil]

/-- What brings nothing. -/
theorem owes_nothing (hpinged : s.pinged e = []) (howed : (s.step e).owed = s.owed) :
    ∃ fs, AreFrames (s.pinged e) fs ∧ (s.step e).owed = s.owed ++ fs := by
  refine ⟨[], ?_, by rw [howed, List.append_nil]⟩
  rw [hpinged]
  rfl

theorem pinged_of_open (ho : s.closed = false) : s.pinged e = (s.ahead e).flatMap pongsFor := by
  rw [pinged, ho]
  rfl

/-- A session that has ended sends nothing. -/
theorem sends_of_closed (h : s.IsSteady) (hc : s.closed = true) (he : e ≠ .answerPings) :
    s.Sends e := by
  have hasked : s.asked e = [] := by
    cases e with
    | dispatch form package thread => rw [asked, dispatch_of_closed hc]
    | _ => rfl
  have hmessaged : s.messaged e = [] := by
    cases e with
    | sendMessage v => rw [messaged, sendMessage, if_pos hc]
    | _ => rfl
  -- only `answerPings` gives up what is owed, and only `passOn` empties the outbox
  have howed : (s.step e).owed = s.owed := by
    rcases step_of_closed h hc e with hsame | rfl | rfl | ⟨timeout, package, info, rfl⟩
    · rw [hsame]
    · exact absurd rfl he
    · rfl
    · rfl
  refine ⟨?_, fun hpass => ?_, owes_nothing (if_pos hc) howed⟩ <;>
    rw [(silent_of_closed h hc e).1.2]
  · rw [hasked, hmessaged]
    rfl
  · rw [List.append_nil]
    rcases step_of_closed h hc e with hsame | rfl | rfl | ⟨timeout, package, info, rfl⟩
    · rw [hsame]
    · exact absurd rfl he
    · exact absurd rfl hpass
    · rfl

/-- A dispatch writes the frame of its request if it returns a handle, and nothing if it
fails. -/
theorem sends_dispatch (h : s.IsSteady) (ho : s.closed = false) (form : Value)
    (package : String) (thread : Thread) : s.Sends (.dispatch form package thread) := by
  have hdispatch := dispatch_of_open h ho form package thread
  have hstep : s.step (.dispatch form package thread) = (s.dispatch form package thread).2 := rfl
  cases hencode : encodeRequest s.nextId form package thread with
  | error e =>
      rw [hencode] at hdispatch
      rw [hdispatch] at hstep
      have hasked : s.asked (.dispatch form package thread) = [] := by rw [asked, hdispatch]
      refine sends_of_texts hasked rfl ?_ (owes_nothing (pinged_of_open ho) ?_) <;> rw [hstep]
  | ok framed =>
      rw [hencode] at hdispatch
      rw [hdispatch] at hstep
      -- the id was in range, so what was framed is the message of the request
      have hframed : (Sent.request s.nextId form package thread).framed = .ok framed := by
        unfold encodeRequest at hencode
        split at hencode
        · cases hencode
        · rw [Sent.framed, Sent.payload, Sent.value_request]
          exact hencode
      have hasked : s.asked (.dispatch form package thread)
          = [.request s.nextId form package thread] := by
        rw [asked, hdispatch]
      have hwrites : s.writes (.dispatch form package thread) = [framed] :=
        writes_of_append (by rw [hstep])
      refine ⟨?_, fun _ => ?_, owes_nothing (pinged_of_open ho) (by rw [hstep])⟩ <;> rw [hwrites]
      · rw [hasked]
        exact congrArg (fun x => [x]) hframed
      · rw [hstep]

/-- Sending a message writes its frame if it succeeds, and nothing if it fails. -/
theorem sends_message (h : s.IsSteady) (ho : s.closed = false) (v : Value) :
    s.Sends (.sendMessage v) := by
  have hsend := sendMessage_of_open h ho v
  have hstep : s.step (.sendMessage v) = (s.sendMessage v).2 := rfl
  cases hencode : encodeMessage v with
  | error e =>
      rw [hencode] at hsend
      rw [hsend] at hstep
      have hmessaged : s.messaged (.sendMessage v) = [] := by rw [messaged, hsend]
      refine sends_of_texts rfl hmessaged ?_ (owes_nothing (pinged_of_open ho) ?_) <;> rw [hstep]
  | ok framed =>
      rw [hencode] at hsend
      rw [hsend] at hstep
      have hmessaged : s.messaged (.sendMessage v) = [.message v] := by rw [messaged, hsend]
      have hwrites : s.writes (.sendMessage v) = [framed] := writes_of_append (by rw [hstep])
      refine ⟨?_, fun _ => ?_, owes_nothing (pinged_of_open ho) (by rw [hstep])⟩ <;> rw [hwrites]
      · rw [hmessaged]
        exact congrArg (fun x => [x]) hencode
      · rw [hstep]

/-- A read writes nothing, and owes the pongs for the payloads that are handled. -/
theorem sends_read (ho : s.closed = false) (bytes : List UInt8) : s.Sends (.read bytes) := by
  refine sends_of_texts rfl rfl (outbox_receive s bytes) ?_
  obtain ⟨f, hreceive⟩ := receive_eq ho bytes
  obtain ⟨fs, hfs, howed⟩ := owed_handleTexts { s with frames := f } (s.ahead (.read bytes))
  refine ⟨fs, by rwa [pinged_of_open ho], ?_⟩
  show (s.receive bytes).owed = _
  rw [hreceive, ← howed]
  -- going down behind the payloads does not change what is owed for them
  cases s.endedBy (.read bytes) with
  | none => rfl
  | some failure => exact owed_shutDown _ failure

theorem sends_of_open (h : s.IsSteady) (ho : s.closed = false) (he : e ≠ .answerPings) :
    s.Sends e := by
  have hnot : ¬ s.closed = true := by
    rw [ho]
    exact Bool.false_ne_true
  cases e with
  | dispatch form package thread => exact sends_dispatch h ho form package thread
  | sendMessage v => exact sends_message h ho v
  | frame payload =>
      have hstep : s.step (.frame payload) = s.handle payload := if_neg hnot
      refine sends_of_texts rfl rfl ?_ ?_
      · rw [hstep, (sameConnection_handle s payload).outbox]
      · rw [hstep, pinged_of_open ho]
        exact owed_handleTexts s [payload]
  | read bytes => exact sends_read ho bytes
  | answerPings => exact absurd rfl he
  | giveUp id => exact sends_of_texts rfl rfl rfl (owes_nothing (pinged_of_open ho) rfl)
  | close =>
      exact sends_of_texts rfl rfl (outbox_shutDown s none)
        (owes_nothing (pinged_of_open ho) (owed_shutDown s none))
  | endOfStream =>
      have hstep : s.step .endOfStream = s.shutDown none := if_neg hnot
      refine sends_of_texts rfl rfl ?_ (owes_nothing (pinged_of_open ho) ?_) <;> rw [hstep]
      · exact outbox_shutDown s none
      · exact owed_shutDown s none
  | breakDown reason =>
      exact sends_of_texts rfl rfl (outbox_shutDown s _)
        (owes_nothing (pinged_of_open ho) (owed_shutDown s _))
  | configure timeout package info =>
      exact sends_of_texts rfl rfl rfl (owes_nothing (pinged_of_open ho) rfl)
  | passOn =>
      refine ⟨?_, fun hpass => absurd rfl hpass, owes_nothing (pinged_of_open ho) rfl⟩
      rw [show s.writes .passOn = [] from List.drop_nil]
      rfl

/-- **What an event sends is what it writes**, and what it handles it owes a pong, unless
it answers pings. -/
theorem sends_step (h : s.IsSteady) (he : e ≠ .answerPings) : s.Sends e := by
  cases hc : s.closed with
  | true => exact sends_of_closed h hc he
  | false => exact sends_of_open h hc he

theorem writes_answerPings_of_open (h : s.IsSteady) (ho : s.closed = false) :
    s.writes .answerPings = s.owed :=
  writes_of_append (if_pos (writable_of_open h ho))

/-- What is written stays written until it is passed on. -/
theorem outbox_step (h : s.IsSteady) (he : e ≠ .passOn) :
    (s.step e).outbox = s.outbox ++ s.writes e := by
  by_cases hanswer : e = .answerPings
  · subst hanswer
    cases hc : s.closed with
    | true =>
        rw [(silent_of_closed h hc _).1.2, List.append_nil]
        exact if_neg (by rw [writable_of_closed h hc]; exact Bool.false_ne_true)
    | false =>
        rw [writes_answerPings_of_open h hc]
        exact if_pos (writable_of_open h hc)
  · exact (sends_step h hanswer).outbox he

end

/-! ## §3. A run. -/

/-- What events make of a session, event by event. -/
def collect {α : Type} (f : Session → Event → List α) (s : Session) : List Event → List α
  | [] => []
  | e :: es => f s e ++ collect f (s.step e) es

theorem collect_concat {α : Type} (f : Session → Event → List α) (es : List Event) (e : Event) :
    collect f attached (es ++ [e]) = collect f attached es ++ f (run es) e := by
  -- the session is general, since the first event changes it
  have hcollect : ∀ s, collect f s (es ++ [e]) = collect f s es ++ f (s.steps es) e := by
    induction es with
    | nil =>
        intro s
        exact List.append_nil _
    | cons e' es ih =>
        intro s
        rw [List.cons_append, collect, collect, ih, List.append_assoc]
        rfl
  exact hcollect attached

theorem forall_mem_collect {α : Type} {f : Session → Event → List α} {P : α → Prop}
    (h : ∀ s e, ∀ x ∈ f s e, P x) (es : List Event) : ∀ x ∈ collect f attached es, P x := by
  induction es using List.reverseRecOn with
  | nil => nofun
  | append_singleton es e ih =>
      rw [collect_concat, List.forall_mem_append]
      exact ⟨ih, h (run es) e⟩

/-- As long as nothing is passed on, the outbox holds all that was written. -/
theorem outbox_run {es : List Event} (h : ∀ e ∈ es, e ≠ .passOn) :
    (run es).outbox = collect writes attached es := by
  induction es using List.reverseRecOn with
  | nil => rfl
  | append_singleton es e ih =>
      rw [List.forall_mem_append] at h
      rw [run_concat, collect_concat, outbox_step (isSteady_run es) (h.2 e List.mem_cons_self),
        ih h.1]

/-- Whether `log` is what a run has sent, in order, and `late` the pongs that it has not
sent. -/
structure IsLog (es : List Event) (log late : List Sent) : Prop where
  /-- What is written are the frames of the log. -/
  written : AreFrames log (collect writes attached es)
  requests : Sent.ofKind .request log = collect asked attached es
  messages : Sent.ofKind .message log = collect messaged attached es
  /-- The pongs for the pings handled are sent in order, up to some. -/
  pongs : Sent.ofKind .pong log ++ late = collect pinged attached es
  /-- As long as the session is open, these are the ones that it owes. -/
  owed : (run es).closed = false → AreFrames late (run es).owed

section

variable {es : List Event} {log late : List Sent}

theorem isLog_nil : IsLog [] [] [] := ⟨rfl, rfl, rfl, rfl, fun _ => rfl⟩

theorem kind_of_mem_late (h : IsLog es log late) : ∀ x ∈ late, x.kind = .pong := by
  intro x hx
  refine forall_mem_collect kind_of_mem_pinged es x ?_
  rw [← h.pongs]
  exact List.mem_append_right _ hx

theorem closed_run_of_concat {e : Event} (ho : (run (es ++ [e])).closed = false) :
    (run es).closed = false := by
  rw [run_concat] at ho
  cases hc : (run es).closed with
  | false => rfl
  | true =>
      rw [(silent_of_closed (isSteady_run es) hc e).2.1] at ho
      cases ho

/-- What an event sends goes to the end of the log. -/
theorem isLog_sends (h : IsLog es log late) {e : Event} (he : (run es).Sends e) :
    IsLog (es ++ [e]) (log ++ ((run es).asked e ++ (run es).messaged e))
      (late ++ (run es).pinged e) := by
  obtain ⟨hwritten, _, fs, hfs, howed⟩ := he
  have hasked := Sent.ofKind_of_all ((run es).kind_of_mem_asked (e := e))
  have hmessaged := Sent.ofKind_of_all ((run es).kind_of_mem_messaged (e := e))
  constructor
  case written =>
    rw [collect_concat]
    exact areFrames_append h.written hwritten
  case requests =>
    rw [collect_concat, Sent.ofKind_append, Sent.ofKind_append, hasked, hmessaged, h.requests]
    exact congrArg _ (List.append_nil _)
  case messages =>
    rw [collect_concat, Sent.ofKind_append, Sent.ofKind_append, hasked, hmessaged, h.messages]
    rfl
  case pongs =>
    rw [collect_concat, Sent.ofKind_append, Sent.ofKind_append, hasked, hmessaged, ← h.pongs,
      ← List.append_assoc]
    exact congrArg (· ++ late ++ _) (List.append_nil _)
  case owed =>
    intro ho
    rw [run_concat, howed]
    exact areFrames_append (h.owed (closed_run_of_concat ho)) hfs

/-- Answering pings sends the pongs that are owed, if the session is open. -/
theorem isLog_answerPings (h : IsLog es log late) :
    ∃ log' late', IsLog (es ++ [.answerPings]) log' late' := by
  have hsteady := isSteady_run es
  have hpinged : (run es).pinged .answerPings = [] := by
    unfold pinged
    split <;> rfl
  have hsame : ∀ f : Session → Event → List Sent, f (run es) .answerPings = [] →
      collect f attached (es ++ [.answerPings]) = collect f attached es := by
    intro f hf
    rw [collect_concat, hf, List.append_nil]
  cases hc : (run es).closed with
  | true =>
      -- nothing is written any more, and what is late stays unsent
      refine ⟨log, late, ?_⟩
      constructor
      case written =>
        rw [collect_concat, (silent_of_closed hsteady hc _).1.2, List.append_nil]
        exact h.written
      case requests => rw [hsame asked rfl, h.requests]
      case messages => rw [hsame messaged rfl, h.messages]
      case pongs => rw [hsame pinged hpinged, h.pongs]
      case owed =>
        intro ho
        rw [closed_run_of_concat ho] at hc
        cases hc
  | false =>
      -- what is late are pongs, so only the pongs of the log become more
      have hlate := Sent.ofKind_of_all (kind_of_mem_late h)
      have hwrites := writes_answerPings_of_open hsteady hc
      refine ⟨log ++ late, [], ?_⟩
      constructor
      case written =>
        rw [collect_concat, hwrites]
        exact areFrames_append h.written (h.owed hc)
      case requests =>
        rw [hsame asked rfl, Sent.ofKind_append, hlate, h.requests]
        exact List.append_nil _
      case messages =>
        rw [hsame messaged rfl, Sent.ofKind_append, hlate, h.messages]
        exact List.append_nil _
      case pongs =>
        rw [hsame pinged hpinged, Sent.ofKind_append, hlate, ← h.pongs]
        exact List.append_nil _
      case owed =>
        intro _
        rw [run_concat]
        rfl

/-- **Every run has a log.** -/
theorem exists_isLog (es : List Event) : ∃ log late, IsLog es log late := by
  -- from the end of the run: the last event adds to the log, or sends what is late
  induction es using List.reverseRecOn with
  | nil => exact ⟨[], [], isLog_nil⟩
  | append_singleton es e ih =>
      obtain ⟨log, late, h⟩ := ih
      by_cases he : e = .answerPings
      · rw [he]
        exact isLog_answerPings h
      · exact ⟨_, _, isLog_sends h (sends_step (isSteady_run es) he)⟩

end

/-! ## §4. The ids of requests. -/

/-- The first `n` ids, in the order in which they are spent. -/
def firstIds (n : Nat) : List UInt64 := (List.range n).map fun k => UInt64.ofNat (k + 1)

theorem firstIds_succ (n : Nat) : firstIds (n + 1) = firstIds n ++ [UInt64.ofNat (n + 1)] := by
  rw [firstIds, List.range_succ, List.map_append]
  rfl

/-- Ids ascend as long as they last. -/
theorem firstIds_ascending {n : Nat} (h : n < UInt64.size) :
    (firstIds n).Pairwise (· < ·) := by
  rw [firstIds, List.pairwise_map]
  refine List.pairwise_lt_range.imp_of_mem fun {k l} hk hl hkl => ?_
  rw [List.mem_range] at hk hl
  rw [UInt64.lt_iff_toNat_lt, UInt64.toNat_ofNat', UInt64.toNat_ofNat',
    Nat.mod_eq_of_lt (show k + 1 < UInt64.size by omega),
    Nat.mod_eq_of_lt (show l + 1 < UInt64.size by omega)]
  omega

/-- A request takes the next id; an event that sends none may spend one. -/
theorem ids_step {s : Session} {n : Nat} (h : s.IsSteady) (hnext : s.nextId = UInt64.ofNat (n + 1))
    (e : Event) :
    ∃ n', n' ≤ n + dispatches [e] ∧ (s.step e).nextId = UInt64.ofNat (n' + 1)
      ∧ (firstIds n ++ (s.asked e).filterMap Sent.id?).Sublist (firstIds n') := by
  by_cases hdispatch : ∃ form package thread, e = .dispatch form package thread
  · obtain ⟨form, package, thread, rfl⟩ := hdispatch
    have hone : dispatches [.dispatch form package thread] = 1 := rfl
    have hsucc : s.nextId + 1 = UInt64.ofNat (n + 1 + 1) := by
      rw [hnext]
      exact (UInt64.ofNat_add (n + 1) 1).symm
    -- refused by a closed session, spent on a request that fits no frame, or sent
    rcases dispatch_cases h form package thread with
      ⟨_, ⟨e, herror⟩, hkept | hspent⟩ | ⟨hok, hspent, _⟩
    · refine ⟨n, by omega, hkept.trans hnext, ?_⟩
      simp [asked, herror]
    · refine ⟨n + 1, by omega, hspent.trans hsucc, ?_⟩
      rw [asked, herror, List.filterMap_nil, List.append_nil, firstIds_succ]
      exact List.sublist_append_left _ _
    · refine ⟨n + 1, by omega, hspent.trans hsucc, ?_⟩
      simp [asked, hok, firstIds_succ, hnext, Sent.id?]
  · have hkept := (ledger_step h e fun form package thread heq =>
      hdispatch ⟨form, package, thread, heq⟩).2
    have hasked : s.asked e = [] := by
      cases e with
      | dispatch form package thread => exact absurd ⟨form, package, thread, rfl⟩ hdispatch
      | _ => rfl
    refine ⟨n, Nat.le_add_right _ _, hkept.trans hnext, ?_⟩
    simp [hasked]

/-- **The requests of a run have ids in the order in which ids are spent**, each of
them once. -/
theorem ids_counted (es : List Event) :
    ∃ n, n ≤ dispatches es ∧ (run es).nextId = UInt64.ofNat (n + 1)
      ∧ ((collect asked attached es).filterMap Sent.id?).Sublist (firstIds n) := by
  induction es using List.reverseRecOn with
  | nil => exact ⟨0, Nat.le_refl _, rfl, .slnil⟩
  | append_singleton es e ih =>
      obtain ⟨n, hn, hnext, hids⟩ := ih
      obtain ⟨n', hn', hnext', hids'⟩ := ids_step (isSteady_run es) hnext e
      rw [run_concat, collect_concat, List.filterMap_append, dispatches_append]
      exact ⟨n', by omega, hnext', (hids.append (.refl _)).trans hids'⟩

/-! ## §5. The stream. -/

/-- Whether bytes carry these payloads and nothing else: a fresh reader receives them
well, however they are cut into chunks, holds nothing of a frame in progress, and hands
out the payloads in order and then nothing. -/
def Carries (bytes : List UInt8) (payloads : List String) : Prop :=
  ∃ r : FrameReader,
    (∀ chunks : List (List UInt8), chunks.flatten = bytes →
      (∀ result ∈ FrameReader.new.fed (chunks.map .feed), result = .ok ())
        ∧ FrameReader.new.after (chunks.map .feed) = r)
    ∧ r.pending = 0
    ∧ ∀ n, r.taken (List.replicate (payloads.length + n) .take)
        = payloads.map (fun p => .ok (some p)) ++ List.replicate n (.ok none)

theorem carries_of_areFrames {xs : List Sent} {fs : List String} (h : AreFrames xs fs) :
    Carries (fs.flatMap Text.utf8) (xs.map Sent.payload) := by
  have hframes : (xs.map Sent.payload).map frame = fs.map .ok := by
    rw [List.map_map]
    exact h
  refine ⟨⟨.inHeader [], (xs.map Sent.payload).map Text.utf8⟩, ?_, rfl, ?_⟩
  · rintro chunks hchunks
    refine FrameReader.fed_chunks ?_
    rw [hchunks, FrameReader.feed_eq_pushAll rfl]
    exact pushAll_frames hframes []
  · exact taken_payloads _ _

/-! ## §6. Pings. -/

/-- What comes of a ping with two values: it is read as one with what they read back
as, and its pong reads back with the same. -/
structure Echoes (v w : Value) : Prop where
  heard : IsMessage (Value.list [.keyword "ping", v, w]).encode (.ping v.normal w.normal)
  echoed : ∃ e, parse (Sent.pong v.normal w.normal).payload = [e]
    ∧ Value.ofSexp e = .list [.keyword "emacs-pong", v.normal, w.normal]

theorem echoes_of_isWireSafe {v w : Value} (hv : v.isWireSafe = true) (hw : w.isWireSafe = true)
    (hdv : v.depth ≤ maxDepth) (hdw : w.depth ≤ maxDepth) : Echoes v w := by
  have hping : Value.IsName "ping" := by decide
  have hpong : Value.IsName "emacs-pong" := by decide
  have hpair : ∀ {P : Value → Prop} {a b : Value}, P a → P b → ∀ u ∈ [a, b], P u := by
    intro P a b ha hb
    exact List.forall_mem_cons.2 ⟨ha, List.forall_mem_singleton.2 hb⟩
  constructor
  case heard =>
    obtain ⟨e, hparse, he⟩ := Value.parse_message hping (hpair hv hw) (hpair hdv hdw)
    refine ⟨Value.ofSexp e, Value.ofText?_of_parse hparse, ?_⟩
    rw [he]
    exact .ping (by decide)
  case echoed =>
    obtain ⟨e, hparse, he⟩ := Value.parse_message hpong
      (hpair (Value.isWireSafe_normal hv) (Value.isWireSafe_normal hw))
      (hpair (Nat.le_trans (Value.depth_normal_le v) hdv)
        (Nat.le_trans (Value.depth_normal_le w) hdw))
    refine ⟨e, hparse, ?_⟩
    rw [he]
    simp only [List.map_cons, Value.normal_normal, List.map_nil]

/-! ## §7. The whole stream. -/

/-- How a run and the stream that it writes belong together. -/
structure IsWhole (es : List Event) : Prop where
  /-- The stream carries the log of the run.  If the session is open and owes nothing,
  no pong is missing in it. -/
  logged : ∃ log late, IsLog es log late
    ∧ Carries ((collect writes attached es).flatMap Text.utf8) (log.map Sent.payload)
    ∧ ((run es).closed = false → (run es).owed = [] → late = [])
  /-- As long as nothing is passed on, the stream is what stands in the outbox. -/
  outbox : (∀ e ∈ es, e ≠ .passOn) → (run es).outbox = collect writes attached es
  /-- Requests come in the order of their ids, which ascend as long as ids last. -/
  ids_in_order : ∃ n, n ≤ dispatches es
    ∧ ((collect asked attached es).filterMap Sent.id?).Sublist (firstIds n)
  ids_ascend : dispatches es < UInt64.size →
    ((collect asked attached es).filterMap Sent.id?).Pairwise (· < ·)

/-- How a payload that is a ping is taken. -/
structure IsAnswered (payload : String) (thread tag : Value) : Prop where
  /-- It is owed its pong, if that fits a frame. -/
  owed : pongsFor payload = [Sent.pong thread tag].filter Sent.fits
  /-- Handling it has no other effect. -/
  silent : ∀ s : Session, ∃ owed, s.handle payload = { s with owed }

theorem isWhole_run (es : List Event) : IsWhole es := by
  obtain ⟨log, late, hlog⟩ := exists_isLog es
  obtain ⟨n, hn, _, hids⟩ := ids_counted es
  constructor
  case logged =>
    refine ⟨log, late, hlog, carries_of_areFrames hlog.written, fun ho hnone => ?_⟩
    have hlate := hlog.owed ho
    rw [hnone] at hlate
    exact List.map_eq_nil_iff.1 hlate
  case outbox => exact outbox_run
  case ids_in_order => exact ⟨n, hn, hids⟩
  case ids_ascend =>
    exact fun hfew => (firstIds_ascending (Nat.lt_of_le_of_lt hn hfew)).sublist hids

theorem isAnswered_of_isMessage {payload : String} {thread tag : Value}
    (h : IsMessage payload (.ping thread tag)) : IsAnswered payload thread tag := by
  constructor
  case owed => rw [pongsFor, Incoming.ofPayload?_eq_some_iff.2 h]
  case silent =>
    intro s
    obtain ⟨fs, _, hhandle⟩ := handle_of_isPing h s
    exact ⟨_, hhandle⟩

theorem pongsFor_of_not_isMessage {payload : String}
    (h : ∀ thread tag, ¬ IsMessage payload (.ping thread tag)) : pongsFor payload = [] := by
  unfold pongsFor
  split
  · next thread tag hread => exact absurd (Incoming.ofPayload?_eq_some_iff.1 hread) (h thread tag)
  · rfl

/-- **The stream to the image is whole.**  All that a session writes in a run is a row of
frames: one for each dispatch that returned a handle, in the order of the ids, one for
each message that was sent, in the order of the calls, and one for each ping that was
handled and whose pong fits, but for those that the session still owes.  A ping has
no other effect, and values that survive being written come back in its pong. -/
theorem stream_is_whole :
    (∀ es, IsWhole es)
      ∧ (∀ payload thread tag, IsMessage payload (.ping thread tag) →
          IsAnswered payload thread tag)
      ∧ (∀ payload, (∀ thread tag, ¬ IsMessage payload (.ping thread tag)) →
          pongsFor payload = [])
      ∧ ∀ v w : Value, v.isWireSafe = true → w.isWireSafe = true →
          v.depth ≤ 256 → w.depth ≤ 256 → Echoes v w :=
  ⟨isWhole_run, fun _ _ _ => isAnswered_of_isMessage, fun _ => pongsFor_of_not_isMessage,
    fun _ _ => echoes_of_isWireSafe⟩

/-- A request, a ping with a list, a message while its pong is owed, the pong, and a
second request. -/
theorem stream_is_whole_ping_between :
    let v := Value.int 1
    let w := Value.list [.symbol "a", .str "b"]
    let ping := (Value.list [.keyword "ping", v, w]).encode
    let es : List Event := [.dispatch .t "CL-USER" .any, .frame ping,
      .sendMessage (.list [.keyword "hi"]), .answerPings, .dispatch .nil "CL-USER" .repl]
    v.isWireSafe = true ∧ w.isWireSafe = true ∧ v.depth ≤ 256 ∧ w.depth ≤ 256
      ∧ IsMessage ping (.ping v.normal w.normal) ∧ IsAnswered ping v.normal w.normal
      ∧ ∃ log, IsLog es log []
        ∧ Carries ((collect writes attached es).flatMap Text.utf8) (log.map Sent.payload)
        ∧ log.map Sent.payload = ["(:emacs-rex t \"CL-USER\" t 1)", "(:hi)",
            "(:emacs-pong 1 (a \"b\"))", "(:emacs-rex nil \"CL-USER\" :repl-thread 2)"]
        ∧ (Sent.ofKind .request log).filterMap Sent.id? = [1, 2] := by
  intro v w ping es
  have hv : v.isWireSafe = true := rfl
  have hw : w.isWireSafe = true := by decide
  have hdw : w.depth ≤ 256 := by decide
  obtain ⟨hwhole, hanswered, _, hechoes⟩ := stream_is_whole
  have hping := (hechoes v w hv hw (Nat.zero_le _) hdw).heard
  refine ⟨hv, hw, Nat.zero_le _, hdw, hping, hanswered _ _ _ hping, ?_⟩
  obtain ⟨log, late, hlog, hcarries, hlate⟩ := (hwhole es).logged
  -- The whole run is evaluated here and below, by the kernel: the elaborator's own
  -- reduction does not get through it.
  obtain rfl := hlate (by decide +kernel) (by decide +kernel)
  have hpayloads := payloads_of_areFrames hlog.written
  refine ⟨log, hlog, hcarries, hpayloads.trans (by decide +kernel), ?_⟩
  rw [hlog.requests]
  decide +kernel

end LispLink.Session
