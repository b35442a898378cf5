/-
  LispLink.Proofs.Session.Fragmentation
  ────────────────────────────────
  **WHEN THE CUT OF A STREAM MAKES NO DIFFERENCE.**

  Two cuts of the same bytes can only differ if the bytes end the session: a
  frame is lost if the read that completes it brings a bad header, and so is the
  answer to a ping that is not written by then.

      lost without a trace   no message; a complaint about a request that is
                             not pending; a ping whose answer fits no frame
      missed                 all else, also a payload that is no text

  So all cuts agree exactly if nothing is owed when the session goes down, and
  no frame before a bad header is missed (`cuts_agree_iff`).
-/
import LispLink.Proofs.Session.Cuts

namespace LispLink.Session

open Wire

/-! ## §1. Frames that say nothing. -/

/-- Whether the frame with these bytes can be lost without a trace, apart from the
answer to a ping: it holds no message, a ping, or a complaint about a request
that is not pending. -/
def IsSilent (s : Session) (bytes : List UInt8) : Prop :=
  ∃ payload, Text.ofUtf8? bytes = some payload ∧
    match Incoming.ofPayload? payload with
    | none => True
    | some (.ping _ _) => True
    | some (.invalidRequest id _) => id ∉ s.pending
    | some _ => False

theorem pong_eq (s : Session) (thread tag : Value) :
    ∃ owed, s.pong thread tag = { s with owed := owed } := by
  unfold pong
  split
  · exact ⟨s.owed, rfl⟩
  · next framed _ => exact ⟨s.owed ++ [framed], rfl⟩

/-- A silent frame leaves nothing behind but the answer to a ping. -/
theorem handle_of_silent {s : Session} {bytes : List UInt8} (h : s.IsSilent bytes) :
    ∃ payload owed, Text.ofUtf8? bytes = some payload
      ∧ s.handle payload = { s with owed := owed } := by
  obtain ⟨payload, htext, hsilent⟩ := h
  suffices hhandle : ∃ owed, s.handle payload = { s with owed := owed } by
    obtain ⟨owed, hhandle⟩ := hhandle
    exact ⟨payload, owed, htext, hhandle⟩
  unfold handle
  cases hm : Incoming.ofPayload? payload with
  | none => exact ⟨s.owed, rfl⟩
  | some m =>
      rw [hm] at hsilent
      cases m with
      | ping thread tag =>
          obtain ⟨owed, hpong⟩ := pong_eq s thread tag
          refine ⟨owed, ?_⟩
          show (s.pong thread tag).notify none = _
          rw [hpong, notify]
          simp
      | invalidRequest id message =>
          have hid : id ∉ s.pending := hsilent
          show ∃ owed, (s.resolve id _).notify none = _
          unfold resolve notify
          rw [if_neg hid]
          exact ⟨s.owed, by simp⟩
      | _ => exact absurd hsilent id

theorem handleAll_of_silent {s : Session} {payloads : List (List UInt8)}
    (h : ∀ bytes ∈ payloads, s.IsSilent bytes) :
    ∃ owed, s.handleAll payloads = { s with owed := owed } := by
  induction payloads generalizing s with
  | nil => exact ⟨s.owed, rfl⟩
  | cons bytes rest ih =>
      obtain ⟨payload, owed, htext, hhandle⟩ := handle_of_silent (h bytes List.mem_cons_self)
      rw [handleAll_text htext, hhandle]
      -- what is silent depends on the pending requests alone
      obtain ⟨owed', hrest⟩ := ih (s := { s with owed := owed })
        (fun b hb => h b (List.mem_cons_of_mem bytes hb))
      exact ⟨owed', hrest⟩

/-- Losing silent frames before the session goes down changes nothing to see. -/
theorem view_shutDown_of_silent {s : Session} {payloads : List (List UInt8)}
    (h : ∀ bytes ∈ payloads, s.IsSilent bytes) (failure : String) :
    ((s.handleAll payloads).shutDown (some failure)).view
      = (s.shutDown (some failure)).view := by
  obtain ⟨owed, hall⟩ := handleAll_of_silent h
  rw [hall]
  unfold view answerPings forget shutDown
  dsimp only
  split <;> rfl

/-! ## §2. Frames that leave a trace. -/

/-- Whether a request was told that the connection is closed. -/
def isRefusal : Outcome → Bool
  | .error .closed => true
  | _ => false

/-- The number of requests that were told so. -/
def refusals (s : Session) : Nat := s.mailbox.countP fun entry => isRefusal entry.2

theorem isRefusal_outcomeOf (status : Status) (payload : Value) :
    isRefusal (outcomeOf status payload) = false := by
  cases status <;> rfl

/-- What handling frames can only add to: notices are never taken back, requests
never become pending again, and none is refused. -/
structure Tells (s s' : Session) : Prop where
  notices : s.notices.length ≤ s'.notices.length
  pending : s'.pending.length ≤ s.pending.length
  refusals : s'.refusals = s.refusals

theorem Tells.trans {s s' s'' : Session} (h : Tells s s') (h' : Tells s' s'') : Tells s s'' :=
  ⟨Nat.le_trans h.notices h'.notices, Nat.le_trans h'.pending h.pending,
    h'.refusals.trans h.refusals⟩

theorem tells_resolve (s : Session) (id : UInt64) {o : Outcome} (ho : isRefusal o = false) :
    Tells s (s.resolve id o) ∧ (s.resolve id o).notices = s.notices
      ∧ ((s.resolve id o).pending.length = s.pending.length → id ∉ s.pending) := by
  unfold resolve
  by_cases hid : id ∈ s.pending
  · rw [if_pos hid]
    have hlength : (s.pending.erase id).length = s.pending.length - 1 :=
      List.length_erase_of_mem hid
    have hpos : 0 < s.pending.length := List.length_pos_of_mem hid
    refine ⟨⟨Nat.le_refl _, ?_, ?_⟩, rfl, fun hsame => ?_⟩
    · show (s.pending.erase id).length ≤ s.pending.length
      omega
    · simp [refusals, List.countP_append, ho]
    · have hsame' : (s.pending.erase id).length = s.pending.length := hsame
      omega
  · rw [if_neg hid]
    exact ⟨⟨Nat.le_refl _, Nat.le_refl _, rfl⟩, rfl, fun _ => hid⟩

/-- Settling a message makes no notice, and a complaint that takes no request off
the table was about none that is pending. -/
theorem tells_settle (s : Session) (m : Incoming) :
    Tells s (s.settle m) ∧ (s.settle m).notices = s.notices
      ∧ ((s.settle m).pending.length = s.pending.length →
          ∀ id message, m = .invalidRequest id message → id ∉ s.pending) := by
  cases m with
  | answer id status payload =>
      obtain ⟨htells, hnotices, _⟩ := tells_resolve s id (isRefusal_outcomeOf status payload)
      refine ⟨htells, hnotices, ?_⟩
      intro _ id message h
      cases h
  | invalidRequest id message =>
      have hrefusal : isRefusal (.error (.invalidRequest message)) = false := rfl
      obtain ⟨htells, hnotices, hsame⟩ := tells_resolve s id hrefusal
      refine ⟨htells, hnotices, ?_⟩
      intro hlength id' message' h
      cases h
      exact hsame hlength
  | ping thread tag =>
      obtain ⟨owed, hpong⟩ := pong_eq s thread tag
      have hsettle : s.settle (.ping thread tag) = { s with owed := owed } := hpong
      rw [hsettle]
      refine ⟨⟨Nat.le_refl _, Nat.le_refl _, rfl⟩, rfl, ?_⟩
      intro _ id message h
      cases h
  | _ =>
      refine ⟨⟨Nat.le_refl _, Nat.le_refl _, rfl⟩, rfl, ?_⟩
      intro _ id message h
      cases h

/-- **A frame that is text tells something or is silent.** -/
theorem tells_handle (s : Session) {bytes : List UInt8} {payload : String}
    (htext : Text.ofUtf8? bytes = some payload) :
    Tells s (s.handle payload) ∧
      ((s.handle payload).notices.length = s.notices.length →
        (s.handle payload).pending.length = s.pending.length → s.IsSilent bytes) := by
  unfold handle
  cases hm : Incoming.ofPayload? payload with
  | none =>
      refine ⟨⟨Nat.le_refl _, Nat.le_refl _, rfl⟩, fun _ _ => ⟨payload, htext, ?_⟩⟩
      rw [hm]
      trivial
  | some m =>
      obtain ⟨htells, hnotices, hcomplaint⟩ := tells_settle s m
      have hlength : ((s.settle m).notify (Notice.ofIncoming? m)).notices.length
          = s.notices.length + (Notice.ofIncoming? m).toList.length := by
        rw [notify, List.length_append, hnotices]
      refine ⟨⟨?_, htells.pending, htells.refusals⟩, ?_⟩
      · show s.notices.length ≤ ((s.settle m).notify (Notice.ofIncoming? m)).notices.length
        omega
      · intro hsame hpending
        have hnone : (Notice.ofIncoming? m).toList.length = 0 := by
          have hsame' : ((s.settle m).notify (Notice.ofIncoming? m)).notices.length
            = s.notices.length := hsame
          omega
        refine ⟨payload, htext, ?_⟩
        rw [hm]
        -- only pings and complaints make no notice
        cases m with
        | ping thread tag => trivial
        | invalidRequest id message => exact hcomplaint hpending id message rfl
        | _ => exact absurd hnone (by simp [Notice.ofIncoming?])

/-- Frames in a row: all of them are text, and then they tell something or are
silent; or one is not, and the session goes down over it. -/
theorem tells_handleAll {s : Session} (ho : s.closed = false) (payloads : List (List UInt8)) :
    ((s.handleAll payloads).closed = false ∧ Tells s (s.handleAll payloads) ∧
        ((s.handleAll payloads).notices.length = s.notices.length →
          (s.handleAll payloads).pending.length = s.pending.length →
          ∀ bytes ∈ payloads, s.IsSilent bytes)) ∨
      ((s.handleAll payloads).closed = true ∧ (s.handleAll payloads).writable = false ∧
        ∃ notices, (s.handleAll payloads).notices
          = notices ++ [.failed FrameError.invalidUtf8.message, .closed]) := by
  induction payloads generalizing s with
  | nil =>
      left
      refine ⟨ho, ⟨Nat.le_refl _, Nat.le_refl _, rfl⟩, ?_⟩
      intro _ _ bytes hbytes
      cases hbytes
  | cons bytes rest ih =>
      cases htext : Text.ofUtf8? bytes with
      | none =>
          right
          rw [handleAll_noText htext]
          refine ⟨closed_shutDown s _, writable_shutDown s _, s.notices, ?_⟩
          unfold shutDown
          dsimp only
          rw [ho]
          simp
      | some payload =>
          rw [handleAll_text htext]
          obtain ⟨htells, hsilent⟩ := tells_handle s htext
          rcases ih ((closed_handle s payload).trans ho) with ⟨hopen, hrest, hquiet⟩ | hdown
          · left
            refine ⟨hopen, htells.trans hrest, ?_⟩
            intro hn hp
            -- nothing was added on the whole, so nothing was added on the way
            have hn₁ : (s.handle payload).notices.length = s.notices.length := by
              have h1 := htells.notices
              have h2 := hrest.notices
              omega
            have hp₁ : (s.handle payload).pending.length = s.pending.length := by
              have h1 := htells.pending
              have h2 := hrest.pending
              omega
            have hfirst := hsilent hn₁ hp₁
            obtain ⟨payload', owed, htext', hhandle⟩ := handle_of_silent hfirst
            rw [htext] at htext'
            cases htext'
            have hlater := hquiet (by omega) (by omega)
            rw [hhandle] at hlater
            intro b hb
            rcases List.mem_cons.1 hb with rfl | hb
            · exact hfirst
            · exact hlater b hb
          · exact .inr hdown

/-! ## §3. What the cut can change. -/

theorem notices_shutDown {s : Session} (ho : s.closed = false) (failure : String) :
    (s.shutDown (some failure)).notices = s.notices ++ [.failed failure, .closed] := by
  unfold shutDown
  dsimp only
  rw [ho]
  simp

theorem refusals_shutDown {s : Session} (ho : s.closed = false) (failure : Option String) :
    (s.shutDown failure).refusals = s.refusals + s.pending.length := by
  have hpending : (s.pending.map fun id => (id, (.error .closed : Outcome))).countP
      (fun entry => isRefusal entry.2) = s.pending.length := by
    rw [List.countP_map]
    exact List.countP_eq_length.2 fun _ _ => rfl
  unfold shutDown refusals
  dsimp only
  rw [ho]
  simp only [Bool.false_eq_true, if_false]
  rw [List.countP_append, hpending]

/-- The two ways in which a stream can be broken are told apart. -/
theorem invalidUtf8_ne_invalidHeader (header : String) :
    FrameError.invalidUtf8.message ≠ (FrameError.invalidHeader header).message := by
  have hmessage : (FrameError.invalidHeader header).message
      = "Invalid frame header " ++ Text.quoted header := rfl
  intro h
  have hhead : FrameError.invalidUtf8.message.toList.head?
      = (FrameError.invalidHeader header).message.toList.head? := by rw [h]
  rw [hmessage, String.toList_append] at hhead
  generalize (Text.quoted header).toList = rest at hhead
  rw [List.head?_append] at hhead
  cases hhead

/-- **A frame leaves a trace unless it is silent**: if the session goes down over
a bad header as though the frames before it had not been there, all of them are
silent. -/
theorem silent_of_view_eq {s : Session} (ho : s.closed = false) {payloads : List (List UInt8)}
    {header : String}
    (h : ((s.handleAll payloads).shutDown (some (FrameError.invalidHeader header).message)).view
      = (s.shutDown (some (FrameError.invalidHeader header).message)).view) :
    ∀ bytes ∈ payloads, s.IsSilent bytes := by
  have hnotices : ((s.handleAll payloads).shutDown
      (some (FrameError.invalidHeader header).message)).notices
        = s.notices ++ [.failed (FrameError.invalidHeader header).message, .closed] :=
    (congrArg Session.notices h).trans (notices_shutDown ho _)
  have hrefusals : ((s.handleAll payloads).shutDown
      (some (FrameError.invalidHeader header).message)).refusals
        = s.refusals + s.pending.length :=
    (congrArg Session.refusals h).trans (refusals_shutDown ho _)
  rcases tells_handleAll ho payloads with ⟨hopen, htells, hquiet⟩ | ⟨hdown, hwritable, ns, hns⟩
  · rw [notices_shutDown hopen] at hnotices
    rw [refusals_shutDown hopen, htells.refusals] at hrefusals
    apply hquiet
    · exact congrArg List.length (List.append_cancel_right hnotices)
    · omega
  · -- the session went down before, and told another reason
    rw [shutDown_of_closed hdown hwritable, hns] at hnotices
    have hlast := (List.append_inj' hnotices rfl).2
    simp only [List.cons.injEq, Notice.failed.injEq, and_true] at hlast
    exact absurd hlast (invalidUtf8_ne_invalidHeader header)

/-! ## §4. Streams that can be cut anywhere. -/

/-- Whether nothing gets lost from a stream, however it is cut. -/
structure IsFirm (s : Session) (bytes : List UInt8) : Prop where
  /-- If the stream ends the session, nothing is owed by then. -/
  paid : (s.readThrough bytes).closed = true → (s.readThrough bytes).owed = []
  /-- The frames before a bad header can be lost without a trace. -/
  silent : ∀ e r, s.frames.pushAll bytes = (.error e, r) →
    ∀ payload ∈ r.complete, s.IsSilent payload

/-- A stream that comes in one read goes without the frames before a bad header,
so these must be silent if they are not missed. -/
theorem silent_of_one_read {s : Session} (h : s.IsSteady) (ho : s.closed = false)
    {bytes : List UInt8} (heq : (s.receive bytes).view = (s.readThrough bytes).view)
    {e : FrameError} {r : FrameReader} (hpush : s.frames.pushAll bytes = (.error e, r)) :
    ∀ payload ∈ r.complete, s.IsSilent payload := by
  rcases receive_cases h ho bytes with ⟨r', hpush', _⟩ | ⟨header, r', hpush', hreceive⟩
  · rw [hpush] at hpush'
    cases hpush'
  · rw [hpush] at hpush'
    cases hpush'
    have hdown : (s.receive bytes).forget
        = (s.shutDown (some (FrameError.invalidHeader header).message)).forget := by
      rw [hreceive, forget_shutDown, forget_shutDown]
      rfl
    have hthrough : (s.readThrough bytes).forget = ((s.handleAll r.complete).shutDown
        (some (FrameError.invalidHeader header).message)).forget := by
      rw [forget_readThrough_error hpush, forget_shutDown, forget_handleAll]
    have hview : ((s.handleAll r.complete).shutDown
        (some (FrameError.invalidHeader header).message)).view
          = (s.shutDown (some (FrameError.invalidHeader header).message)).view :=
      calc _ = (s.readThrough bytes).view := (view_eq_of_forget hthrough).symm
        _ = (s.receive bytes).view := heq.symm
        _ = _ := view_eq_of_forget hdown
    exact silent_of_view_eq ho hview

/-- One read that ends the session leaves all answers unwritten. -/
theorem outbox_of_one_read {s : Session} (h : s.IsSteady) (ho : s.closed = false)
    {bytes : List UInt8} (hc : (s.readThrough bytes).closed = true) :
    (s.receive bytes).view.outbox = s.outbox := by
  have hdown : (s.receive bytes).closed = true := by
    rcases receive_cases h ho bytes with ⟨r, hpush, _, hreceive⟩ | ⟨header, r, _, hreceive⟩
    · rw [readThrough, hpush] at hc
      rw [hreceive]
      exact hc
    · rw [hreceive]
      exact closed_shutDown _ _
  have hwritable : (s.receive bytes).writable = false :=
    writable_of_closed (isSteady_receive h bytes) hdown
  show (if (s.receive bytes).writable = true then _ else (s.receive bytes).outbox) = s.outbox
  rw [hwritable, outbox_receive]
  rfl

/-- **Cuts that agree lose nothing.**  It is enough to compare three of them: one
read, a read for every byte, and the same with answers in between. -/
theorem isFirm_of_agree {s : Session} (h : s.IsSteady) (ho : s.closed = false)
    {bytes : List UInt8}
    (hagree : ∀ cut cut', IsCut bytes cut → IsCut bytes cut' →
      (s.steps cut).view = (s.steps cut').view) : s.IsFirm bytes := by
  have hone : IsCut bytes ([bytes].map .read) := isCut_reads (by simp)
  have hbytes : IsCut bytes ((bytes.map fun b => [b]).map .read) :=
    isCut_reads (List.flatMap_singleton' bytes)
  have hthrough := forget_reads_bytes h ho bytes
  constructor
  · -- with answers before every byte nothing that is owed stays unwritten
    intro hc
    have hsame := hagree _ _ (isCut_byteCut bytes) hone
    rw [steps_reads] at hsame
    have houtbox : s.outbox ++ (s.readThrough bytes).owed = s.outbox :=
      calc s.outbox ++ (s.readThrough bytes).owed
          = s.outbox ++ (s.reads (bytes.map fun b => [b])).owed := by
            rw [owed_of_forget hthrough]
        _ = (s.steps (byteCut bytes)).view.outbox := (outbox_byteCut h ho bytes).symm
        _ = (s.receive bytes).view.outbox := congrArg Session.outbox hsame
        _ = s.outbox := outbox_of_one_read h ho hc
    exact List.append_right_eq_self.1 houtbox
  · -- byte by byte no frame is lost, in one read all of them are
    intro e r hpush
    have hsame := hagree _ _ hone hbytes
    rw [steps_reads, steps_reads] at hsame
    exact silent_of_one_read h ho (hsame.trans (view_eq_of_forget hthrough)) hpush

/-- What handling more frames owes comes behind what handling fewer does. -/
theorem owed_of_handleAll_append {s : Session} (ho : s.closed = false)
    {as bs : List (List UInt8)} (hpaid : (s.handleAll (as ++ bs)).owed = []) :
    (s.handleAll as).owed = [] := by
  rw [handleAll_append s ho] at hpaid
  split at hpaid
  · exact hpaid
  · rw [← carry_free (s.handleAll as), ← shift_of_frames rfl, handleAll_shift] at hpaid
    exact (List.append_eq_nil_iff.1 hpaid).1

/-- **Reads of a firm stream lose nothing.** -/
theorem view_reads_of_isFirm {s : Session} (h : s.IsSteady) (ho : s.closed = false)
    (chunks : List (List UInt8)) (hfirm : s.IsFirm chunks.flatten) :
    (s.reads chunks).view = (s.readThrough chunks.flatten).view
      ∧ ((s.reads chunks).closed = true → (s.reads chunks).owed = []) := by
  have hreads := reads_amountsTo h ho chunks
  cases hpush : s.frames.pushAll chunks.flatten with
  | mk result r =>
      rw [hpush] at hreads
      cases result with
      | ok _ =>
          have hsame := hreads.trans (forget_readThrough_ok hpush).symm
          have hclosed := closed_of_forget hsame
          refine ⟨view_eq_of_forget hsame, fun hc => ?_⟩
          rw [owed_of_forget hsame]
          exact hfirm.paid (hclosed ▸ hc)
      | error e =>
          obtain ⟨handled, lost, hsplit, _, hdown⟩ := hreads
          have hthrough := forget_readThrough_error hpush
          have hall : ∀ payload ∈ r.complete, s.forget.IsSilent payload := hfirm.silent e r hpush
          have hhandled : ∀ payload ∈ handled, s.forget.IsSilent payload := by
            intro payload hpayload
            apply hall
            rw [hsplit]
            exact List.mem_append_left _ hpayload
          have hclosed : (s.readThrough chunks.flatten).forget.closed = true := by
            rw [hthrough]
            exact closed_shutDown _ _
          refine ⟨?_, fun _ => ?_⟩
          · calc (s.reads chunks).forget.view
                = ((s.forget.handleAll handled).shutDown (some e.message)).view := by rw [hdown]
              _ = (s.forget.shutDown (some e.message)).view := view_shutDown_of_silent hhandled _
              _ = ((s.forget.handleAll r.complete).shutDown (some e.message)).view :=
                  (view_shutDown_of_silent hall _).symm
              _ = (s.readThrough chunks.flatten).forget.view := by rw [hthrough]
          · have hpaid : (s.readThrough chunks.flatten).forget.owed = [] := hfirm.paid hclosed
            rw [hthrough, owed_shutDown, hsplit] at hpaid
            show (s.reads chunks).forget.owed = []
            rw [hdown, owed_shutDown]
            exact owed_of_handleAll_append (s := s.forget) ho hpaid

/-- **When the cut makes no difference**: all cuts of the bytes that come next have
the same effect exactly if nothing gets lost from them, and then every complete
frame is handled, also those before a bad header. -/
theorem cuts_agree_iff (es : List Event) (ho : (run es).closed = false) (bytes : List UInt8) :
    ((∀ cut cut', IsCut bytes cut → IsCut bytes cut' →
        ((run es).steps cut).view = ((run es).steps cut').view) ↔ (run es).IsFirm bytes)
      ∧ ((run es).IsFirm bytes → ∀ cut, IsCut bytes cut →
        ((run es).steps cut).view = ((run es).readThrough bytes).view) := by
  have h := isSteady_run es
  have hthrough : (run es).IsFirm bytes → ∀ cut, IsCut bytes cut →
      ((run es).steps cut).view = ((run es).readThrough bytes).view := by
    intro hfirm cut hcut
    have hflatten := flatten_chunksOf hcut
    rw [← hflatten] at hfirm ⊢
    obtain ⟨hview, hpaid⟩ := view_reads_of_isFirm h ho (chunksOf cut) hfirm
    rw [← hview]
    -- the answers in between: nothing to answer, or nothing that gets lost
    cases hc : ((run es).reads (chunksOf cut)).closed with
    | true => rw [steps_of_paid hcut (hpaid hc)]
    | false => exact view_steps_of_open hcut h hc
  refine ⟨⟨fun hagree => isFirm_of_agree h ho hagree, ?_⟩, hthrough⟩
  intro hfirm cut cut' hcut hcut'
  exact (hthrough hfirm cut hcut).trans (hthrough hfirm cut' hcut').symm

/-- A reply with nothing broken behind it may be cut in any way. -/
theorem cuts_agree_reply :
    let s := run [.dispatch (.call "swank:x" []) "CL-USER" .any]
    let reply := Text.utf8 "000017(:return (:ok :done) 1)"
    s.closed = false ∧ s.IsFirm reply ∧
      ∀ cut cut', IsCut reply cut → IsCut reply cut' → (s.steps cut).view = (s.steps cut').view := by
  intro s reply
  have ho : s.closed = false := by decide
  have hok : (s.frames.pushAll reply).1.isOk = true := by decide
  have hopen : (s.readThrough reply).closed = false := by decide
  have hfirm : s.IsFirm reply := by
    constructor
    · intro hc
      exact absurd (hopen.symm.trans hc) Bool.false_ne_true
    · intro e r herror
      rw [herror] at hok
      cases hok
  exact ⟨ho, hfirm, (cuts_agree_iff _ ho reply).1.2 hfirm⟩

/-- The same reply and a bad header behind it: in two reads the request has its
outcome, in one it is refused. -/
theorem cuts_disagree :
    let s := run [.dispatch (.call "swank:x" []) "CL-USER" .any]
    let reply := Text.utf8 "000017(:return (:ok :done) 1)"
    let bad := Text.utf8 "zzzzzz"
    s.closed = false ∧ IsCut (reply ++ bad) [.read reply, .read bad]
      ∧ IsCut (reply ++ bad) [.read (reply ++ bad)]
      ∧ (s.steps [.read reply, .read bad]).refusals = 0
      ∧ (s.steps [.read (reply ++ bad)]).refusals = 1
      ∧ (s.steps [.read reply, .read bad]).view ≠ (s.steps [.read (reply ++ bad)]).view := by
  intro s reply bad
  have htwo : (s.steps [.read reply, .read bad]).refusals = 0 := by decide
  have hone : (s.steps [.read (reply ++ bad)]).refusals = 1 := by decide
  have hcut₂ : IsCut (reply ++ bad) ([reply, bad].map .read) := isCut_reads (by simp)
  have hcut₁ : IsCut (reply ++ bad) ([reply ++ bad].map .read) := isCut_reads (by simp)
  refine ⟨by decide, hcut₂, hcut₁, htwo, hone, ?_⟩
  intro h
  have hview : (s.steps [.read reply, .read bad]).view.refusals
      = (s.steps [.read (reply ++ bad)]).view.refusals := by rw [h]
  have hsame : (s.steps [.read reply, .read bad]).refusals
      = (s.steps [.read (reply ++ bad)]).refusals := hview
  rw [htwo, hone] at hsame
  cases hsame

end LispLink.Session
