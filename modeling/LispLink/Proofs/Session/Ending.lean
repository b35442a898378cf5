/-
  LispLink.Proofs.Session.Ending
  ────────────────────────────────
  **A SESSION ENDS ONCE AND FOR ALL.**

  An open session ends with the first event that gives it cause to: somebody hangs
  up, the connection breaks, or a read brings a bad header or a payload that is no
  text (`endedBy`).  What the read completes before such a payload is still
  handled (`ahead`); then every request that is left is refused, and subscribers
  hear of the failure, if it was one, and of the end:

      notices of the run  =  messages … , (failed) , closed

  From then on the session is the same whatever happens, as far as anyone can
  tell (`IsFinal`).

  Whether a read is such an event can be told from all the bytes that have been
  read by then, as if they came in one go (`endedBy_read_iff`).
-/
import LispLink.Proofs.Session.Correlation
import LispLink.Proofs.Wire.Accounts
import Mathlib.Data.List.Induction

namespace LispLink.Session

open Wire

/-! ## §1. What an event tells and writes. -/

/-- The notices that an event adds.  Passing on what was noticed adds none. -/
def gives (s : Session) (e : Event) : List Notice :=
  (s.step e).notices.drop s.notices.length

/-- The frames that an event adds to what is written. -/
def writes (s : Session) (e : Event) : List String :=
  (s.step e).outbox.drop s.outbox.length

/-- The notices that several events add, in order. -/
def givesOver (s : Session) : List Event → List Notice
  | [] => []
  | e :: es => s.gives e ++ (s.step e).givesOver es

/-- Whether a notice is about a message, and not about the session itself. -/
def Notice.isMessage : Notice → Bool
  | .closed | .failed _ => false
  | _ => true

/-- The notice that a payload makes, if it makes one. -/
def noticeOf (payload : String) : List Notice :=
  ((Incoming.ofPayload? payload).bind Notice.ofIncoming?).toList

theorem givesOver_append (s : Session) (as bs : List Event) :
    s.givesOver (as ++ bs) = s.givesOver as ++ (s.steps as).givesOver bs := by
  induction as generalizing s with
  | nil => rfl
  | cons a as ih => rw [List.cons_append, givesOver, ih, givesOver, steps_cons, List.append_assoc]

theorem gives_of_append {s : Session} {e : Event} {ns : List Notice}
    (h : (s.step e).notices = s.notices ++ ns) : s.gives e = ns := by
  rw [gives, h, List.drop_left]

theorem isMessage_noticeOf (payload : String) : ∀ n ∈ noticeOf payload, n.isMessage = true := by
  intro n hn
  obtain ⟨m, _, hm⟩ := Option.bind_eq_some_iff.1 (Option.mem_toList.1 hn)
  cases m <;> cases hm <;> rfl

/-! ## §2. Handling texts. -/

/-- The payloads that are text, up to the first that is none. -/
def textsOf : List (List UInt8) → List String
  | [] => []
  | bytes :: rest =>
    match Text.ofUtf8? bytes with
    | some payload => payload :: textsOf rest
    | none => []

/-- Whether all payloads are text. -/
def areTexts (payloads : List (List UInt8)) : Bool :=
  payloads.all fun bytes => (Text.ofUtf8? bytes).isSome

/-- Handle several payloads that are text. -/
def handleTexts (s : Session) (payloads : List String) : Session := payloads.foldl handle s

theorem handleAll_eq (s : Session) (payloads : List (List UInt8)) :
    s.handleAll payloads =
      if areTexts payloads then s.handleTexts (textsOf payloads)
      else (s.handleTexts (textsOf payloads)).shutDown (some FrameError.invalidUtf8.message) := by
  induction payloads generalizing s with
  | nil => rfl
  | cons bytes rest ih =>
      cases h : Text.ofUtf8? bytes with
      | some payload =>
          have hall : areTexts (bytes :: rest) = areTexts rest := by
            rw [areTexts, List.all_cons, h]
            rfl
          rw [handleAll_text h, ih, hall, textsOf, h]
          rfl
      | none =>
          have hall : areTexts (bytes :: rest) = false := by
            rw [areTexts, List.all_cons, h]
            rfl
          rw [handleAll_noText h, hall, textsOf, h]
          rfl

theorem notices_handle (s : Session) (payload : String) :
    (s.handle payload).notices = s.notices ++ noticeOf payload := by
  unfold handle noticeOf
  cases Incoming.ofPayload? payload with
  | none => simp
  | some m =>
      show (s.settle m).notices ++ _ = _
      have hsettle : (s.settle m).notices = s.notices := by
        cases m with
        | answer id status p =>
            show (s.resolve id _).notices = s.notices
            unfold resolve
            split <;> rfl
        | invalidRequest id text =>
            show (s.resolve id _).notices = s.notices
            unfold resolve
            split <;> rfl
        | ping thread tag =>
            show (s.pong thread tag).notices = s.notices
            unfold pong
            split <;> rfl
        | _ => rfl
      rw [hsettle]
      rfl

theorem notices_handleTexts (s : Session) (payloads : List String) :
    (s.handleTexts payloads).notices = s.notices ++ payloads.flatMap noticeOf := by
  induction payloads generalizing s with
  | nil => simp [handleTexts]
  | cons p ps ih =>
      show ((s.handle p).handleTexts ps).notices = _
      rw [ih, notices_handle, List.flatMap_cons, List.append_assoc]

theorem ledger_handleTexts (s : Session) (payloads : List String) :
    (s.handleTexts payloads).ledger = s.ledger.fileAll (payloads.flatMap inboundText) := by
  induction payloads generalizing s with
  | nil => rfl
  | cons p ps ih =>
      show ((s.handle p).handleTexts ps).ledger = _
      rw [ih, ledger_handle, List.flatMap_cons, Ledger.fileAll_append]

theorem closed_handleTexts (s : Session) (payloads : List String) :
    (s.handleTexts payloads).closed = s.closed := by
  induction payloads generalizing s with
  | nil => rfl
  | cons p ps ih => exact (ih (s.handle p)).trans (closed_handle s p)

theorem notices_shutDown_of_open {s : Session} (ho : s.closed = false) (failure : Option String) :
    (s.shutDown failure).notices
      = s.notices ++ ((failure.map Notice.failed).toList ++ [.closed]) := by
  unfold shutDown
  dsimp only
  rw [ho, ← List.append_assoc]
  rfl

/-! ## §3. What ends a session. -/

/-- How an event ends an open session, if it does: with a failure, or without
one. -/
def endedBy (s : Session) : Event → Option (Option String)
  | .close | .endOfStream => some none
  | .breakDown reason => some (some reason)
  | .read bytes =>
    match s.frames.feed bytes with
    | (.error e, _) => some (some e.message)
    | (.ok _, r) =>
      if areTexts r.complete then none else some (some FrameError.invalidUtf8.message)
  | _ => none

/-- The payloads that an event brings to an open session and that are handled, up
to its end if it ends. -/
def ahead (s : Session) : Event → List String
  | .frame payload => [payload]
  | .read bytes =>
    match s.frames.feed bytes with
    | (.error _, _) => []
    | (.ok _, r) => textsOf r.complete
  | _ => []

section

variable {s : Session} {e : Event} {failure : Option String}

/-- What a read does to an open session: it handles the payloads that are text,
and may end the session. -/
theorem receive_eq (ho : s.closed = false) (bytes : List UInt8) :
    ∃ f, s.receive bytes =
      match s.endedBy (.read bytes) with
      | some failure =>
          (handleTexts { s with frames := f } (s.ahead (.read bytes))).shutDown failure
      | none => handleTexts { s with frames := f } (s.ahead (.read bytes)) := by
  rw [receive_of_open ho]
  unfold endedBy ahead
  dsimp only
  cases s.frames.feed bytes with
  | mk result r =>
      cases result with
      | error e => exact ⟨r, rfl⟩
      | ok _ =>
          refine ⟨{ r with complete := [] }, ?_⟩
          dsimp only
          rw [handleAll_eq]
          cases areTexts r.complete <;> rfl

/-- **An event that ends an open session**: what comes ahead of the end is handled,
and then the session is shut down. -/
theorem step_of_endedBy (ho : s.closed = false) (he : s.endedBy e = some failure) :
    ∃ f, s.step e = (handleTexts { s with frames := f } (s.ahead e)).shutDown failure := by
  cases e with
  | close =>
      cases he
      exact ⟨s.frames, rfl⟩
  | endOfStream =>
      cases he
      have hend : s.endOfStream = s.shutDown none := by
        rw [endOfStream, if_neg (by rw [ho]; exact Bool.false_ne_true)]
      exact ⟨s.frames, hend⟩
  | breakDown reason =>
      cases he
      exact ⟨s.frames, rfl⟩
  | read bytes =>
      obtain ⟨f, hreceive⟩ := receive_eq ho bytes
      rw [he] at hreceive
      exact ⟨f, hreceive⟩
  | _ => cases he

/-- An event that does not end an open session leaves it open, and tells of
messages only. -/
theorem step_of_not_endedBy (h : s.IsSteady) (ho : s.closed = false) (he : s.endedBy e = none) :
    (s.step e).closed = false ∧ ∀ n ∈ s.gives e, n.isMessage = true := by
  -- an event tells nothing, or it handles texts
  have hsilent : (s.step e).closed = false → (s.step e).notices = s.notices →
      (s.step e).closed = false ∧ ∀ n ∈ s.gives e, n.isMessage = true := by
    intro hopen hnotices
    have hnone : s.gives e = [] := gives_of_append (by rw [hnotices, List.append_nil])
    rw [hnone]
    exact ⟨hopen, nofun⟩
  have htexts : ∀ {t : Session} {ps : List String}, s.step e = t.handleTexts ps →
      t.closed = false → t.notices = s.notices →
      (s.step e).closed = false ∧ ∀ n ∈ s.gives e, n.isMessage = true := by
    intro t ps hstep hopen hnotices
    have hgives : s.gives e = ps.flatMap noticeOf := by
      apply gives_of_append
      rw [hstep, notices_handleTexts, hnotices]
    rw [hgives, hstep, closed_handleTexts]
    refine ⟨hopen, fun n hn => ?_⟩
    obtain ⟨p, _, hn⟩ := List.mem_flatMap.1 hn
    exact isMessage_noticeOf p n hn
  cases e with
  | dispatch form package thread =>
      have hstep : s.step (.dispatch form package thread)
          = (s.dispatch form package thread).2 := rfl
      rw [dispatch_of_open h ho] at hstep
      apply hsilent <;> rw [hstep] <;> cases encodeRequest s.nextId form package thread
      · exact ho
      · exact ho
      · rfl
      · rfl
  | sendMessage message =>
      obtain ⟨outbox, hsend⟩ := sendMessage_eq s message
      have hstep : s.step (.sendMessage message) = { s with outbox := outbox } := hsend
      apply hsilent <;> rw [hstep]
      exact ho
  | frame payload =>
      have hstep : s.step (.frame payload) = s.handleTexts [payload] := by
        rw [step, if_neg (by rw [ho]; exact Bool.false_ne_true)]
        rfl
      exact htexts hstep ho rfl
  | read bytes =>
      obtain ⟨f, hreceive⟩ := receive_eq ho bytes
      rw [he] at hreceive
      exact htexts (t := { s with frames := f }) hreceive ho rfl
  | passOn =>
      refine ⟨ho, fun n hn => ?_⟩
      rw [gives, show (s.step .passOn).notices = [] from rfl, List.drop_nil] at hn
      cases hn
  | close => cases he
  | endOfStream => cases he
  | breakDown reason => cases he
  | _ => exact hsilent ho rfl

/-- The notices of an event that ends an open session. -/
theorem gives_of_endedBy (ho : s.closed = false) (he : s.endedBy e = some failure) :
    s.gives e
      = (s.ahead e).flatMap noticeOf ++ ((failure.map Notice.failed).toList ++ [.closed]) := by
  obtain ⟨f, hstep⟩ := step_of_endedBy ho he
  have hopen : (handleTexts { s with frames := f } (s.ahead e)).closed = false :=
    (closed_handleTexts _ _).trans ho
  apply gives_of_append
  rw [hstep, notices_shutDown_of_open hopen, notices_handleTexts, List.append_assoc]

/-- The requests that are left when a session ends are refused, each once. -/
theorem ledger_of_endedBy (ho : s.closed = false) (he : s.endedBy e = some failure) :
    (s.step e).closed = true
      ∧ (s.step e).ledger = (s.handleTexts (s.ahead e)).ledger.file .ended := by
  obtain ⟨f, hstep⟩ := step_of_endedBy ho he
  have hopen : (handleTexts { s with frames := f } (s.ahead e)).closed = false :=
    (closed_handleTexts _ _).trans ho
  rw [hstep, ledger_shutDown hopen, ledger_handleTexts, ledger_handleTexts]
  exact ⟨closed_shutDown _ _, rfl⟩

end

/-! ## §4. Behind the end. -/

/-- What is true of a session for good once it has ended: nothing that anyone sends
or does has an effect on it, and no request is taken. -/
structure IsFinal (s : Session) : Prop where
  closed : s.closed = true
  pending : s.pending = []
  close : s.close = s
  endOfStream : s.endOfStream = s
  read : ∀ bytes, s.receive bytes = s
  frame : ∀ payload, s.step (.frame payload) = s
  dispatch : ∀ form package thread, s.dispatch form package thread = (.error .closed, s)
  sendMessage : ∀ message, s.sendMessage message = (.error .closed, s)
  /-- Whatever happens, nobody is told anything, nothing is written, nothing is
  pending and no id is spent. -/
  silent : ∀ e, s.gives e = [] ∧ s.writes e = []
  still : ∀ e, (s.step e).closed = true ∧ (s.step e).pending = [] ∧ (s.step e).nextId = s.nextId

section

variable {s : Session}

/-- What can still happen to a session that has ended: what was written and noticed
is passed on, owed answers are given up, and the editor sets how it sends. -/
theorem step_of_closed (h : s.IsSteady) (hc : s.closed = true) (e : Event) :
    s.step e = s ∨ e = .answerPings ∨ e = .passOn
      ∨ ∃ timeout package info, e = .configure timeout package info := by
  have hw := writable_of_closed h hc
  cases e with
  | dispatch form package thread =>
      left
      rw [step, dispatch_of_closed hc]
  | sendMessage message =>
      left
      rw [step, sendMessage, if_pos hc]
  | frame payload => exact .inl (if_pos hc)
  | read bytes => exact .inl (receive_of_closed hc bytes)
  | answerPings => exact .inr (.inl rfl)
  | giveUp id => exact .inl rfl
  | close => exact .inl (shutDown_of_closed hc hw none)
  | endOfStream => exact .inl (if_pos hc)
  | breakDown reason => exact .inl (shutDown_of_closed hc hw _)
  | configure timeout package info => exact .inr (.inr (.inr ⟨timeout, package, info, rfl⟩))
  | passOn => exact .inr (.inr (.inl rfl))

theorem silent_of_closed (h : s.IsSteady) (hc : s.closed = true) (e : Event) :
    (s.gives e = [] ∧ s.writes e = [])
      ∧ (s.step e).closed = true ∧ (s.step e).pending = s.pending
      ∧ (s.step e).nextId = s.nextId := by
  have hw := writable_of_closed h hc
  rcases step_of_closed h hc e with hsame | rfl | rfl | ⟨timeout, package, info, rfl⟩
  · rw [gives, writes, hsame, List.drop_length, List.drop_length]
    exact ⟨⟨rfl, rfl⟩, hc, rfl, rfl⟩
  · have houtbox : (s.step .answerPings).outbox = s.outbox :=
      if_neg (by rw [hw]; exact Bool.false_ne_true)
    rw [gives, writes, houtbox, List.drop_length]
    exact ⟨⟨List.drop_length, rfl⟩, hc, rfl, rfl⟩
  · rw [gives, writes]
    exact ⟨⟨List.drop_nil, List.drop_nil⟩, hc, rfl, rfl⟩
  · rw [gives, writes]
    exact ⟨⟨List.drop_length, List.drop_length⟩, hc, rfl, rfl⟩

theorem isFinal_of_closed (h : s.IsSteady) (hc : s.closed = true) (hpending : s.pending = []) :
    s.IsFinal := by
  have hw := writable_of_closed h hc
  constructor
  case closed => exact hc
  case pending => exact hpending
  case close => exact shutDown_of_closed hc hw none
  case endOfStream => exact if_pos hc
  case read => exact receive_of_closed hc
  case frame => exact fun _ => if_pos hc
  case dispatch => exact dispatch_of_closed hc
  case sendMessage => exact fun _ => if_pos hc
  case silent => exact fun e => (silent_of_closed h hc e).1
  case still =>
    intro e
    obtain ⟨_, hclosed, hsame, hnext⟩ := silent_of_closed h hc e
    exact ⟨hclosed, hsame.trans hpending, hnext⟩

/-- A closed session has no pending requests. -/
theorem pending_of_closed (es : List Event) (hc : (run es).closed = true) :
    (run es).pending = [] := by
  have hrun : (run es).IsSteady ∧ ((run es).closed = true → (run es).pending = []) := by
    refine run_induction (P := fun s => s.IsSteady ∧ (s.closed = true → s.pending = []))
      ⟨isSteady_attached, nofun⟩ ?_ es
    rintro s e ⟨h, hpending⟩
    refine ⟨isSteady_step h e, fun hclosed => ?_⟩
    cases hc : s.closed with
    | true => exact (silent_of_closed h hc e).2.2.1.trans (hpending hc)
    | false =>
        cases he : s.endedBy e with
        | some failure => exact congrArg Ledger.pending (ledger_of_endedBy hc he).2
        | none =>
            rw [(step_of_not_endedBy h hc he).1] at hclosed
            cases hclosed
  exact hrun.2 hc

theorem isFinal_run {es : List Event} (hc : (run es).closed = true) : (run es).IsFinal :=
  isFinal_of_closed (isSteady_run es) hc (pending_of_closed es hc)

end

/-- Closed stays closed. -/
theorem closed_run_append {es : List Event} (hc : (run es).closed = true) (later : List Event) :
    (run (es ++ later)).closed = true ∧ (run es).givesOver later = [] := by
  induction later generalizing es with
  | nil =>
      rw [List.append_nil]
      exact ⟨hc, rfl⟩
  | cons e later ih =>
      have hstep : run (es ++ [e]) = (run es).step e := steps_append _ _ _
      obtain ⟨⟨hgives, _⟩, hclosed, _⟩ := silent_of_closed (isSteady_run es) hc e
      rw [← hstep] at hclosed
      obtain ⟨hend, hnone⟩ := ih hclosed
      rw [List.append_assoc] at hend
      rw [givesOver, hgives, ← hstep, hnone]
      exact ⟨hend, rfl⟩

/-! ## §5. The end of a run. -/

/-- Whether no event of a run gives the session cause to end. -/
def NoCause (es : List Event) : Prop :=
  ∀ before e after, es = before ++ e :: after → (run before).endedBy e = none

theorem noCause_concat {es : List Event} {e : Event} :
    NoCause (es ++ [e]) ↔ NoCause es ∧ (run es).endedBy e = none := by
  constructor
  · intro h
    refine ⟨?_, h es e [] rfl⟩
    rintro before e' after rfl
    exact h before e' (after ++ [e]) (by simp)
  · rintro ⟨h, he⟩ before e' after heq
    rcases List.eq_nil_or_concat after with rfl | ⟨after', last, rfl⟩
    · obtain ⟨rfl, hlast⟩ := List.append_inj' heq rfl
      cases hlast
      exact he
    · have hsplit : es ++ [e] = (before ++ e' :: after') ++ [last] := by rw [heq]; simp
      exact h before e' after' (List.append_inj' hsplit rfl).1

theorem run_concat (es : List Event) (e : Event) : run (es ++ [e]) = (run es).step e :=
  steps_append _ _ _

/-- Without cause a session stays open, and tells of messages only. -/
theorem open_of_noCause {es : List Event} (h : NoCause es) :
    (run es).closed = false ∧ ∀ n ∈ attached.givesOver es, n.isMessage = true := by
  induction es using List.reverseRecOn with
  | nil => exact ⟨rfl, nofun⟩
  | append_singleton es e ih =>
      obtain ⟨hes, he⟩ := noCause_concat.1 h
      obtain ⟨ho, htold⟩ := ih hes
      obtain ⟨hopen, hgives⟩ := step_of_not_endedBy (isSteady_run es) ho he
      rw [run_concat, givesOver_append]
      refine ⟨hopen, fun n hn => ?_⟩
      rcases List.mem_append.1 hn with hn | hn
      · exact htold n hn
      · rw [givesOver, givesOver, List.append_nil] at hn
        exact hgives n hn

/-- A run has a first event that gives cause to end, or none. -/
theorem first_cause (es : List Event) :
    NoCause es ∨ ∃ before e after failure, es = before ++ e :: after ∧ NoCause before
      ∧ (run before).endedBy e = some failure := by
  induction es using List.reverseRecOn with
  | nil =>
      left
      intro before e after h
      cases before <;> cases h
  | append_singleton es e ih =>
      rcases ih with h | ⟨before, e', after, failure, rfl, h, he⟩
      · cases he : (run es).endedBy e with
        | none => exact .inl (noCause_concat.2 ⟨h, he⟩)
        | some failure => exact .inr ⟨es, e, [], failure, rfl, h, he⟩
      · exact .inr ⟨before, e', after ++ [e], failure, by simp, h, he⟩

/-- How a run goes that ends with the event `e`. -/
structure EndsAt (before : List Event) (e : Event) (after : List Event)
    (failure : Option String) : Prop where
  /-- Requests that are pending when the payloads ahead of the end are handled are
  refused, each once. -/
  refused :
    let s := (run before).handleTexts ((run before).ahead e)
    (run (before ++ [e])).mailbox = s.mailbox ++ s.pending.map (·, .error .closed)
  /-- Subscribers hear of messages, then of the failure if there was one, and then
  of the end, and of nothing else any more. -/
  told : ∃ messages, (∀ n ∈ messages, n.isMessage = true)
    ∧ attached.givesOver (before ++ e :: after)
        = messages ++ ((failure.map Notice.failed).toList ++ [.closed])
  /-- Nobody fails by hanging up. -/
  failed_iff : failure = none ↔ e = .close ∨ e = .endOfStream
  /-- The session has ended for good. -/
  final : ∀ mid rest, after = mid ++ rest → (run (before ++ e :: mid)).IsFinal

theorem endedBy_eq_none_iff {s : Session} {e : Event} {failure : Option String}
    (he : s.endedBy e = some failure) : failure = none ↔ e = .close ∨ e = .endOfStream := by
  cases e with
  | close =>
      cases he
      exact iff_of_true rfl (.inl rfl)
  | endOfStream =>
      cases he
      exact iff_of_true rfl (.inr rfl)
  | breakDown reason =>
      cases he
      exact iff_of_false nofun nofun
  | read bytes =>
      refine iff_of_false ?_ nofun
      rintro rfl
      unfold endedBy at he
      dsimp only at he
      split at he
      · cases he
      · split at he <;> cases he
  | _ => cases he

theorem endsAt_of_cause {before : List Event} {e : Event} {failure : Option String}
    (h : NoCause before) (he : (run before).endedBy e = some failure) (after : List Event) :
    EndsAt before e after failure := by
  obtain ⟨ho, htold⟩ := open_of_noCause h
  obtain ⟨hclosed, hledger⟩ := ledger_of_endedBy ho he
  rw [← run_concat] at hclosed hledger
  have hsplit : ∀ later, before ++ e :: later = (before ++ [e]) ++ later := by simp
  constructor
  case refused => exact congrArg Ledger.mailbox hledger
  case told =>
    refine ⟨attached.givesOver before ++ ((run before).ahead e).flatMap noticeOf, ?_, ?_⟩
    · intro n hn
      rcases List.mem_append.1 hn with hn | hn
      · exact htold n hn
      · obtain ⟨p, _, hn⟩ := List.mem_flatMap.1 hn
        exact isMessage_noticeOf p n hn
    · -- what came before, what the event itself adds, and nothing behind it
      have hend : (attached.steps before).gives e = _ := gives_of_endedBy ho he
      have hafter : (attached.steps (before ++ [e])).givesOver after = [] :=
        (closed_run_append hclosed after).2
      rw [hsplit, givesOver_append, givesOver_append, hafter, givesOver, givesOver, hend]
      simp only [List.append_nil, List.append_assoc]
      rfl
  case failed_iff => exact endedBy_eq_none_iff he
  case final =>
    rintro mid rest rfl
    rw [hsplit]
    exact isFinal_run (closed_run_append hclosed mid).1

/-- **A session ends once and for all.**  In every run either no event gives cause
to end, and then the session is open and tells of messages only; or there is a
first event that does, and the session ends with it. -/
theorem ends_once (es : List Event) :
    (NoCause es ∧ (run es).closed = false ∧ ∀ n ∈ attached.givesOver es, n.isMessage = true)
      ∨ ∃ before e after failure, es = before ++ e :: after ∧ NoCause before
          ∧ (run before).endedBy e = some failure ∧ EndsAt before e after failure := by
  rcases first_cause es with h | ⟨before, e, after, failure, heq, h, he⟩
  · exact .inl ⟨h, open_of_noCause h⟩
  · exact .inr ⟨before, e, after, failure, heq, h, he, endsAt_of_cause h he after⟩

/-- A bad header ends the session; hanging up and more bytes add nothing. -/
example :
    let bytes := Text.utf8 "zzzzzz"
    attached.givesOver [.dispatch .t "CL-USER" .any, .read bytes, .close, .read bytes]
      = [.failed "Invalid frame header \"zzzzzz\"", .closed] := by
  decide

/-! ## §6. The bytes that end a session. -/

/-- The bytes that an event reads. -/
def Event.bytes : Event → List UInt8
  | .read bytes => bytes
  | _ => []

/-- The bytes that several events read, in order. -/
def bytesRead (es : List Event) : List UInt8 := es.flatMap Event.bytes

theorem bytesRead_concat (es : List Event) (e : Event) :
    bytesRead (es ++ [e]) = bytesRead es ++ e.bytes := by
  rw [bytesRead, List.flatMap_append, List.flatMap_singleton]
  rfl

theorem areTexts_append (as bs : List (List UInt8)) :
    areTexts (as ++ bs) = (areTexts as && areTexts bs) :=
  List.all_append

theorem areTexts_iff (payloads : List (List UInt8)) :
    areTexts payloads = true ↔ ∀ payload ∈ payloads, ∃ text, payload = Text.utf8 text := by
  rw [areTexts, List.all_eq_true]
  refine forall₂_congr fun payload _ => ?_
  rw [Option.isSome_iff_exists]
  exact exists_congr fun text => Text.ofUtf8?_eq_some_iff

section

variable {s : Session} {e : Event}

/-- Only reads lead on in the stream, as long as the session does not end. -/
theorem frames_step (h : s.IsSteady) (ho : s.closed = false) (he : s.endedBy e = none)
    (hread : ∀ bytes, e ≠ .read bytes) : (s.step e).frames = s.frames := by
  cases e with
  | dispatch form package thread =>
      have hstep : s.step (.dispatch form package thread)
          = (s.dispatch form package thread).2 := rfl
      rw [hstep, dispatch_of_open h ho]
      cases encodeRequest s.nextId form package thread <;> rfl
  | sendMessage message =>
      obtain ⟨outbox, hsend⟩ := sendMessage_eq s message
      have hstep : s.step (.sendMessage message) = { s with outbox := outbox } := hsend
      rw [hstep]
  | frame payload =>
      have hstep : s.step (.frame payload) = s.handle payload :=
        if_neg (by rw [ho]; exact Bool.false_ne_true)
      rw [hstep]
      exact (sameConnection_handle s payload).frames
  | read bytes => exact absurd rfl (hread bytes)
  | close => cases he
  | endOfStream => cases he
  | breakDown reason => cases he
  | _ => rfl

/-- An open session can take bytes in, so a read is judged by what they do to its
reader. -/
theorem endedBy_read (h : s.IsSteady) (ho : s.closed = false) (bytes : List UInt8) :
    s.endedBy (.read bytes) =
      match s.frames.pushAll bytes with
      | (.error e, _) => some (some e.message)
      | (.ok _, r) =>
        if areTexts r.complete then none else some (some FrameError.invalidUtf8.message) := by
  rw [← FrameReader.feed_eq_pushAll (h.sound ho)]
  rfl

/-- A read of an open session that does not end it. -/
theorem frames_read (h : s.IsSteady) (ho : s.closed = false) {bytes : List UInt8}
    (he : s.endedBy (.read bytes) = none) :
    ∃ r, s.frames.pushAll bytes = (.ok (), r) ∧ areTexts r.complete = true
      ∧ (s.step (.read bytes)).frames = ⟨r.phase, []⟩ := by
  rw [endedBy_read h ho] at he
  rcases receive_cases h ho bytes with ⟨r, hpush, _, hreceive⟩ | ⟨header, r, hpush, _⟩
  · rw [hpush] at he
    dsimp only at he
    split at he
    · next htexts =>
        refine ⟨r, hpush, htexts, ?_⟩
        show (s.receive bytes).frames = _
        rw [hreceive, frames_handleAll]
    · cases he
  · rw [hpush] at he
    cases he

end

/-- What has come in without cause to end is texts, and all of it is handled. -/
theorem frames_of_noCause {es : List Event} (h : NoCause es) :
    ∃ phase payloads, FrameReader.new.pushAll (bytesRead es) = (.ok (), ⟨phase, payloads⟩)
      ∧ areTexts payloads = true ∧ (run es).frames = ⟨phase, []⟩ := by
  induction es using List.reverseRecOn with
  | nil => exact ⟨_, [], rfl, rfl, rfl⟩
  | append_singleton es e ih =>
      obtain ⟨hes, he⟩ := noCause_concat.1 h
      obtain ⟨phase, payloads, hpush, htexts, hframes⟩ := ih hes
      have ho := (open_of_noCause hes).1
      rw [run_concat, bytesRead_concat]
      -- a read goes on where the bytes before it have led, and nothing else moves the reader
      by_cases hread : ∃ bytes, e = .read bytes
      · obtain ⟨bytes, rfl⟩ := hread
        obtain ⟨r, hnext, hall, hafter⟩ := frames_read (isSteady_run es) ho he
        refine ⟨r.phase, payloads ++ r.complete, ?_, ?_, hafter⟩
        · rw [hframes] at hnext
          rw [FrameReader.pushAll_append, hpush]
          dsimp only
          rw [FrameReader.pushAll_eq]
          show FrameReader.prepend payloads (FrameReader.pushAll ⟨phase, []⟩ bytes) = _
          rw [hnext]
          rfl
        · rw [areTexts_append, htexts, hall]
          rfl
      · have hnone : e.bytes = [] := by
          cases e with
          | read bytes => exact absurd ⟨bytes, rfl⟩ hread
          | _ => rfl
        rw [hnone, List.append_nil,
          frames_step (isSteady_run es) ho he fun bytes hbytes => hread ⟨bytes, hbytes⟩]
        exact ⟨phase, payloads, hpush, htexts, hframes⟩

/-- Where the reads were cut makes no difference: the session ends as if all bytes came in
with this one. -/
theorem endedBy_read_eq {before : List Event} (h : NoCause before) (bytes : List UInt8) :
    (run before).endedBy (.read bytes) =
      match FrameReader.new.pushAll (bytesRead before ++ bytes) with
      | (.error e, _) => some (some e.message)
      | (.ok _, r) =>
        if areTexts r.complete then none else some (some FrameError.invalidUtf8.message) := by
  obtain ⟨phase, payloads, hpush, htexts, hframes⟩ := frames_of_noCause h
  have hstream : FrameReader.new.pushAll (bytesRead before ++ bytes)
      = FrameReader.prepend payloads ((run before).frames.pushAll bytes) := by
    rw [FrameReader.pushAll_append, hpush, hframes]
    exact FrameReader.pushAll_eq _ _
  rw [endedBy_read (isSteady_run before) (open_of_noCause h).1, hstream]
  cases (run before).frames.pushAll bytes with
  | mk result r =>
      cases result with
      | error e => rfl
      | ok _ =>
          -- the payloads of before are texts, so they make no difference
          show _ = if areTexts (payloads ++ r.complete) then none else _
          rw [areTexts_append, htexts, Bool.true_and]

/-- **Which reads end a session.**  Let nothing have given cause to end.  A read does,
exactly if in all the bytes that have come in there is a header that is no number behind
whole frames, or if they are whole frames and the beginning of another, and the payload
of one of them is no text. -/
theorem endedBy_read_iff {before : List Event} (h : NoCause before) (bytes : List UInt8)
    (failure : Option String) :
    (run before).endedBy (.read bytes) = some failure ↔
      (∃ header, BreaksOff (bytesRead before ++ bytes) header
          ∧ failure = some (FrameError.invalidHeader (Text.ofUtf8Lossy header)).message)
        ∨ ∃ payloads, Flows (bytesRead before ++ bytes) payloads
            ∧ (¬ ∀ payload ∈ payloads, ∃ text, payload = Text.utf8 text)
            ∧ failure = some FrameError.invalidUtf8.message := by
  rw [endedBy_read_eq h]
  rcases hpush : FrameReader.new.pushAll (bytesRead before ++ bytes) with ⟨result, r⟩
  -- what the bytes are decides what they do to a reader, and it cannot do two things
  cases result with
  | error e =>
      constructor
      · intro hends
        cases hends
        obtain ⟨header, hbreaks, rfl⟩ := FrameReader.pushAll_error_iff.1 ⟨r, hpush⟩
        exact .inl ⟨header, hbreaks, rfl⟩
      · rintro (⟨header, hbreaks, rfl⟩ | ⟨payloads, hflows, -, -⟩)
        · obtain ⟨r', hpush'⟩ := FrameReader.pushAll_of_breaksOff hbreaks
          rw [hpush] at hpush'
          cases hpush'
          rfl
        · obtain ⟨phase, hpush'⟩ := FrameReader.pushAll_of_flows hflows
          rw [hpush] at hpush'
          cases hpush'
  | ok _ =>
      have hflows : Flows (bytesRead before ++ bytes) r.complete :=
        FrameReader.pushAll_ok_iff.1 ⟨r.phase, hpush⟩
      dsimp only
      constructor
      · intro hends
        split at hends
        · cases hends
        · next hnot =>
            cases hends
            exact .inr ⟨r.complete, hflows, mt (areTexts_iff r.complete).2 hnot, rfl⟩
      · rintro (⟨header, hbreaks, -⟩ | ⟨payloads, hflows', hnot, rfl⟩)
        · obtain ⟨r', hpush'⟩ := FrameReader.pushAll_of_breaksOff hbreaks
          rw [hpush] at hpush'
          cases hpush'
        · obtain ⟨phase, hpush'⟩ := FrameReader.pushAll_of_flows hflows'
          rw [hpush] at hpush'
          cases hpush'
          exact if_neg (mt (areTexts_iff payloads).1 hnot)

end LispLink.Session
