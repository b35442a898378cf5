/-
  LispLink.Proofs.Session.Correlation
  ────────────────────────────────
  **EVERY REQUEST GETS THE OUTCOME THAT IS MEANT FOR IT.**

  What matters to requests is the ledger of a session: the requests that are
  pending and the outcomes that were filed.  Only two kinds of step touch it, a
  dispatch, which enters a fresh id, and what comes in, which is read off the run
  as a list of messages and the end of the session (`inboundOver`):

      outcome of id  =  what the first of these that decides id says

  Ids are numbers of 64 bits, so they stay fresh for the first 2⁶⁴ - 1 requests.
-/
import LispLink.Proofs.Session.Runs

namespace LispLink.Session

open Wire

/-! ## §1. What comes in. -/

/-- What comes in and may concern a request: a message, or the end. -/
inductive Inbound where
  | message (m : Incoming)
  | ended

/-- The outcome that something inbound means for the request of that id: the payload
of an answer that says all is well, and the reason of any other. -/
def decides (id : UInt64) : Inbound → Option Outcome
  | .message (.answer target .ok payload) =>
    if target = id then some (.ok payload) else none
  | .message (.answer target (.abort reason) _) =>
    if target = id then some (.error (.aborted reason)) else none
  | .message (.invalidRequest target text) =>
    if target = id then some (.error (.invalidRequest text)) else none
  | .message _ => none
  | .ended => some (.error .closed)

/-- The message in a payload, if there is one. -/
def inboundText (payload : String) : List Inbound :=
  ((Incoming.ofPayload? payload).map .message).toList

/-- The messages in frames, up to one that is no text, which ends the session. -/
def inboundFrames : List (List UInt8) → List Inbound
  | [] => []
  | bytes :: rest =>
    match Text.ofUtf8? bytes with
    | some payload => inboundText payload ++ inboundFrames rest
    | none => [.ended]

/-- What comes in with an event in an open session. -/
def heard (s : Session) : Event → List Inbound
  | .frame payload => inboundText payload
  | .read bytes =>
    match s.frames.feed bytes with
    | (.error _, _) => [.ended]
    | (.ok _, r) => inboundFrames r.complete
  | .close | .endOfStream | .breakDown _ => [.ended]
  | _ => []

/-- What comes in with an event.  Nothing does once the session is closed. -/
def inbound (s : Session) (e : Event) : List Inbound := if s.closed then [] else s.heard e

/-- What comes in over several events, in order. -/
def inboundOver (s : Session) : List Event → List Inbound
  | [] => []
  | e :: es => s.inbound e ++ (s.step e).inboundOver es

/-- The id of the handle that an event returns. -/
def issued (s : Session) : Event → Option UInt64
  | .dispatch form package thread =>
    match (s.dispatch form package thread).1 with
    | .ok h => some h.id
    | .error _ => none
  | _ => none

/-- The ids of the handles that several events return, in order. -/
def issuedOver (s : Session) : List Event → List UInt64
  | [] => []
  | e :: es => (s.issued e).toList ++ (s.step e).issuedOver es

/-- How many of the events are dispatches. -/
def dispatches (es : List Event) : Nat :=
  es.countP fun e => match e with
    | .dispatch .. => true
    | _ => false

theorem inbound_of_closed {s : Session} (hc : s.closed = true) (e : Event) :
    s.inbound e = [] := by
  rw [inbound, if_pos hc]

theorem inbound_of_open {s : Session} (ho : s.closed = false) (e : Event) :
    s.inbound e = s.heard e := by
  rw [inbound, ho]
  rfl

/-! ## §2. The ledger. -/

/-- The requests that are pending and the outcomes that were filed. -/
structure Ledger where
  pending : List UInt64
  mailbox : List (UInt64 × Outcome)

namespace Ledger

/-- File an outcome, if the request is pending. -/
def resolve (l : Ledger) (id : UInt64) (o : Outcome) : Ledger :=
  if id ∈ l.pending then ⟨l.pending.erase id, l.mailbox ++ [(id, o)]⟩ else l

/-- What something inbound does to the ledger. -/
def file (l : Ledger) : Inbound → Ledger
  | .message (.answer id status payload) => l.resolve id (outcomeOf status payload)
  | .message (.invalidRequest id text) => l.resolve id (.error (.invalidRequest text))
  | .message _ => l
  | .ended => ⟨[], l.mailbox ++ l.pending.map (·, .error .closed)⟩

/-- What several things inbound do to the ledger. -/
def fileAll (l : Ledger) (xs : List Inbound) : Ledger := xs.foldl file l

theorem fileAll_append (l : Ledger) (xs ys : List Inbound) :
    l.fileAll (xs ++ ys) = (l.fileAll xs).fileAll ys := by
  simp [fileAll]

end Ledger

/-- The ledger of a session. -/
def ledger (s : Session) : Ledger := ⟨s.pending, s.mailbox⟩

/-! ## §3. Steps on the ledger. -/

theorem ledger_resolve (s : Session) (id : UInt64) (o : Outcome) :
    (s.resolve id o).ledger = s.ledger.resolve id o := by
  unfold resolve Ledger.resolve ledger
  split <;> rfl

theorem ledger_settle (s : Session) (m : Incoming) :
    (s.settle m).ledger = s.ledger.file (.message m) := by
  cases m with
  | answer id status payload => exact ledger_resolve s id _
  | invalidRequest id text => exact ledger_resolve s id _
  | ping thread tag =>
      show (s.pong thread tag).ledger = s.ledger
      unfold pong
      split <;> rfl
  | _ => rfl

theorem ledger_handle (s : Session) (payload : String) :
    (s.handle payload).ledger = s.ledger.fileAll (inboundText payload) := by
  unfold handle inboundText
  cases Incoming.ofPayload? payload with
  | none => rfl
  | some m =>
      show (s.settle m).ledger = s.ledger.file (.message m)
      exact ledger_settle s m

theorem ledger_shutDown {s : Session} (ho : s.closed = false) (failure : Option String) :
    (s.shutDown failure).ledger = s.ledger.file .ended := by
  unfold shutDown
  dsimp only
  rw [ho]
  rfl

theorem shutDown_ledger_of_closed {s : Session} (hc : s.closed = true)
    (failure : Option String) : (s.shutDown failure).ledger = s.ledger := by
  unfold shutDown
  dsimp only
  rw [hc]
  rfl

theorem ledger_handleAll {s : Session} (ho : s.closed = false) (payloads : List (List UInt8)) :
    (s.handleAll payloads).ledger = s.ledger.fileAll (inboundFrames payloads) := by
  induction payloads generalizing s with
  | nil => rfl
  | cons bytes rest ih =>
      unfold inboundFrames
      cases htext : Text.ofUtf8? bytes with
      | some payload =>
          rw [handleAll_text htext, ih ((closed_handle s payload).trans ho), ledger_handle,
            ← Ledger.fileAll_append]
      | none =>
          rw [handleAll_noText htext, ledger_shutDown ho]
          rfl

theorem ledger_receive {s : Session} (h : s.IsSteady) (ho : s.closed = false)
    (bytes : List UInt8) :
    (s.receive bytes).ledger = s.ledger.fileAll (s.inbound (.read bytes)) := by
  rw [inbound_of_open ho, heard, FrameReader.feed_eq_pushAll (h.sound ho)]
  rcases receive_cases h ho bytes with ⟨r, hpush, _, hreceive⟩ | ⟨header, r, hpush, hreceive⟩
  · rw [hpush, hreceive]
    exact ledger_handleAll (s := { s with frames := { r with complete := [] } }) ho r.complete
  · rw [hpush, hreceive]
    exact ledger_shutDown (s := { s with frames := r }) ho _

/-- What a dispatch does: it fails, and the ledger stays as it is; or it enters
the next id, and returns a handle with it. -/
theorem dispatch_cases {s : Session} (h : s.IsSteady) (form : Value) (package : String)
    (thread : Thread) :
    let x := s.dispatch form package thread
    (x.2.ledger = s.ledger ∧ (∃ e, x.1 = .error e)
        ∧ (x.2.nextId = s.nextId ∨ x.2.nextId = s.nextId + 1)) ∨
      (x.1 = .ok ⟨s.nextId, s.timeout⟩ ∧ x.2.nextId = s.nextId + 1
        ∧ x.2.ledger = ⟨s.pending ++ [s.nextId], s.mailbox⟩) := by
  cases hc : s.closed with
  | true =>
      rw [dispatch_of_closed hc]
      exact .inl ⟨rfl, ⟨.closed, rfl⟩, .inl rfl⟩
  | false =>
      rw [dispatch_of_open h hc]
      cases encodeRequest s.nextId form package thread with
      | error e => exact .inl ⟨rfl, ⟨.encode e, rfl⟩, .inr rfl⟩
      | ok framed => exact .inr ⟨rfl, rfl, rfl⟩

/-- **Whatever is no dispatch changes the ledger by what comes in**, and spends no
id. -/
theorem ledger_step {s : Session} (h : s.IsSteady) (e : Event)
    (he : ∀ form package thread, e ≠ .dispatch form package thread) :
    (s.step e).ledger = s.ledger.fileAll (s.inbound e) ∧ (s.step e).nextId = s.nextId := by
  cases hc : s.closed with
  | true =>
      rw [inbound_of_closed hc]
      cases e with
      | dispatch form package thread => exact absurd rfl (he form package thread)
      | sendMessage message =>
          obtain ⟨outbox, hsend⟩ := sendMessage_eq s message
          rw [step, hsend]
          exact ⟨rfl, rfl⟩
      | frame payload =>
          rw [step, hc]
          exact ⟨rfl, rfl⟩
      | read bytes =>
          rw [step, receive_of_closed hc]
          exact ⟨rfl, rfl⟩
      | close => exact ⟨shutDown_ledger_of_closed hc none, nextId_shutDown s none⟩
      | endOfStream =>
          rw [step, endOfStream, hc]
          exact ⟨rfl, rfl⟩
      | breakDown reason => exact ⟨shutDown_ledger_of_closed hc _, nextId_shutDown s _⟩
      | _ => exact ⟨rfl, rfl⟩
  | false =>
      cases e with
      | dispatch form package thread => exact absurd rfl (he form package thread)
      | sendMessage message =>
          obtain ⟨outbox, hsend⟩ := sendMessage_eq s message
          rw [inbound_of_open hc, step, hsend]
          exact ⟨rfl, rfl⟩
      | frame payload =>
          rw [inbound_of_open hc, step, hc]
          exact ⟨ledger_handle s payload, (sameConnection_handle s payload).nextId⟩
      | read bytes => exact ⟨ledger_receive h hc bytes, nextId_receive s bytes⟩
      | close =>
          rw [inbound_of_open hc]
          exact ⟨ledger_shutDown hc none, nextId_shutDown s none⟩
      | endOfStream =>
          rw [inbound_of_open hc, step, endOfStream, hc]
          exact ⟨ledger_shutDown hc none, nextId_shutDown s none⟩
      | breakDown reason =>
          rw [inbound_of_open hc]
          exact ⟨ledger_shutDown hc _, nextId_shutDown s _⟩
      | _ =>
          rw [inbound_of_open hc]
          exact ⟨rfl, rfl⟩

/-! ## §4. What filing keeps. -/

namespace Ledger

variable {l : Ledger} {ids : List UInt64} {id : UInt64}

/-- The requests that have an outcome. -/
def filed (l : Ledger) : List UInt64 := l.mailbox.map Prod.fst

/-- Whether each of the requests `ids`, and no other, is in the ledger, and in one
place only: pending, or filed with one outcome. -/
structure IsBalanced (l : Ledger) (ids : List UInt64) : Prop where
  mem_iff : ∀ id, id ∈ ids ↔ id ∈ l.pending ∨ id ∈ l.filed
  apart : ∀ id ∈ l.pending, id ∉ l.filed
  pending_nodup : l.pending.Nodup
  filed_nodup : l.filed.Nodup

theorem isBalanced_resolve (h : l.IsBalanced ids) (target : UInt64) (o : Outcome) :
    (l.resolve target o).IsBalanced ids := by
  unfold resolve
  by_cases ht : target ∈ l.pending
  · -- the request moves from the pending ones to the filed ones
    rw [if_pos ht]
    have hfiled : filed ⟨l.pending.erase target, l.mailbox ++ [(target, o)]⟩
        = l.filed ++ [target] := by
      simp [filed]
    have herase : ∀ id, id ∈ l.pending.erase target ↔ id ≠ target ∧ id ∈ l.pending :=
      fun id => h.pending_nodup.mem_erase_iff
    constructor
    · intro id
      rw [hfiled, List.mem_append, List.mem_singleton, herase, h.mem_iff]
      by_cases hid : id = target
      · simp [hid, ht]
      · simp [hid]
    · intro id hid
      obtain ⟨hne, hpending⟩ := (herase id).1 hid
      rw [hfiled, List.mem_append, List.mem_singleton]
      rintro (hin | heq)
      · exact h.apart id hpending hin
      · exact hne heq
    · exact h.pending_nodup.erase target
    · rw [hfiled, List.nodup_append]
      refine ⟨h.filed_nodup, List.pairwise_singleton _ target, ?_⟩
      rintro a ha b hb rfl
      rw [List.mem_singleton] at hb
      exact h.apart target ht (hb ▸ ha)
  · -- whoever is not pending is not touched
    rw [if_neg ht]
    exact h

theorem isBalanced_ended (h : l.IsBalanced ids) : (l.file .ended).IsBalanced ids := by
  have hfiled : (l.file .ended).filed = l.filed ++ l.pending := by
    simp [filed, file, Function.comp_def]
  constructor
  · intro id
    rw [hfiled, List.mem_append, h.mem_iff]
    show _ ↔ id ∈ [] ∨ _
    simp [or_comm]
  · intro id hid
    cases hid
  · exact List.nodup_nil
  · rw [hfiled, List.nodup_append]
    refine ⟨h.filed_nodup, h.pending_nodup, ?_⟩
    rintro a ha b hb rfl
    exact h.apart a hb ha

/-- **Filing keeps the ledger balanced.** -/
theorem isBalanced_file (h : l.IsBalanced ids) (x : Inbound) : (l.file x).IsBalanced ids := by
  cases x with
  | ended => exact isBalanced_ended h
  | message m =>
      cases m with
      | answer target status payload => exact isBalanced_resolve h target _
      | invalidRequest target text => exact isBalanced_resolve h target _
      | _ => exact h

theorem isBalanced_fileAll (h : l.IsBalanced ids) (xs : List Inbound) :
    (l.fileAll xs).IsBalanced ids := by
  induction xs generalizing l with
  | nil => exact h
  | cons x xs ih => exact ih (isBalanced_file h x)

theorem lookup_eq_none_iff : l.mailbox.lookup id = none ↔ id ∉ l.filed := by
  rw [List.lookup_eq_none_iff, filed, List.mem_map]
  constructor
  · rintro hall ⟨p, hp, rfl⟩
    have hne := hall p hp
    simp at hne
  · intro hnot p hp
    rw [bne_iff_ne]
    rintro rfl
    exact hnot ⟨p, hp, rfl⟩

/-- What a message does to one request if it names `target`: only that one, and
only while it is pending. -/
theorem resolve_spec (h : l.IsBalanced ids) (target : UInt64) (o : Outcome) (id : UInt64) :
    (l.resolve target o).mailbox.lookup id
        = (if id ∈ l.pending then (if target = id then some o else none)
          else l.mailbox.lookup id)
      ∧ (id ∈ (l.resolve target o).pending ↔ id ∈ l.pending ∧ target ≠ id) := by
  have hnone : id ∈ l.pending → l.mailbox.lookup id = none :=
    fun hid => lookup_eq_none_iff.2 (h.apart id hid)
  unfold resolve
  by_cases ht : target ∈ l.pending
  · rw [if_pos ht, List.lookup_append, List.lookup_cons, h.pending_nodup.mem_erase_iff]
    by_cases hid : id ∈ l.pending
    · rw [if_pos hid, hnone hid]
      by_cases heq : target = id
      · simp [heq]
      · have hne : (id == target) = false := beq_eq_false_iff_ne.2 (Ne.symm heq)
        simp [heq, hne, hid, Ne.symm heq]
    · have heq : id ≠ target := fun heq => hid (heq ▸ ht)
      have hne : (id == target) = false := beq_eq_false_iff_ne.2 heq
      simp [hid, hne]
  · rw [if_neg ht]
    by_cases hid : id ∈ l.pending
    · have heq : target ≠ id := fun heq => ht (heq ▸ hid)
      simp [hid, hnone hid, heq]
    · simp [hid]

theorem lookup_refusals (pending : List UInt64) (id : UInt64) (o : Outcome) :
    (pending.map (·, o)).lookup id = if id ∈ pending then some o else none := by
  induction pending with
  | nil => rfl
  | cons p ps ih =>
      rw [List.map_cons, List.lookup_cons]
      by_cases heq : id = p
      · simp [heq]
      · have hne : (id == p) = false := beq_eq_false_iff_ne.2 heq
        rw [hne, ih]
        simp [heq]

/-- **What something inbound does to one request**: a pending one gets the outcome
that is meant for it and is pending no more, or nothing happens to it. -/
theorem file_spec (h : l.IsBalanced ids) (x : Inbound) (id : UInt64) :
    (l.file x).mailbox.lookup id
        = (if id ∈ l.pending then decides id x else l.mailbox.lookup id)
      ∧ (id ∈ (l.file x).pending ↔ id ∈ l.pending ∧ decides id x = none) := by
  have hnone : id ∈ l.pending → l.mailbox.lookup id = none :=
    fun hid => lookup_eq_none_iff.2 (h.apart id hid)
  have hsilent : l.mailbox.lookup id
      = (if id ∈ l.pending then none else l.mailbox.lookup id) := by
    by_cases hid : id ∈ l.pending
    · rw [if_pos hid, hnone hid]
    · rw [if_neg hid]
  cases x with
  | ended =>
      show (l.mailbox ++ l.pending.map (·, (.error .closed : Outcome))).lookup id = _
        ∧ (id ∈ [] ↔ _)
      rw [List.lookup_append, lookup_refusals]
      by_cases hid : id ∈ l.pending
      · simp [hid, hnone hid, decides]
      · simp [hid]
  | message m =>
      cases m with
      | answer target status payload =>
          have hspec := resolve_spec h target (outcomeOf status payload) id
          cases status with
          | ok =>
              refine ⟨hspec.1, hspec.2.trans ?_⟩
              by_cases heq : target = id <;> simp [decides, heq]
          | abort reason =>
              refine ⟨hspec.1, hspec.2.trans ?_⟩
              by_cases heq : target = id <;> simp [decides, heq]
      | invalidRequest target text =>
          have hspec := resolve_spec h target (.error (.invalidRequest text) : Outcome) id
          refine ⟨hspec.1, hspec.2.trans ?_⟩
          by_cases heq : target = id <;> simp [decides, heq]
      | _ => exact ⟨hsilent, (and_iff_left rfl).symm⟩

/-- The same for several things: the first that decides a request counts. -/
theorem fileAll_spec (h : l.IsBalanced ids) (xs : List Inbound) (id : UInt64) :
    (l.fileAll xs).mailbox.lookup id
        = (if id ∈ l.pending then xs.findSome? (decides id) else l.mailbox.lookup id)
      ∧ (id ∈ (l.fileAll xs).pending
          ↔ id ∈ l.pending ∧ xs.findSome? (decides id) = none) := by
  induction xs generalizing l with
  | nil =>
      refine ⟨?_, (and_iff_left rfl).symm⟩
      by_cases hid : id ∈ l.pending
      · rw [if_pos hid]
        exact lookup_eq_none_iff.2 (h.apart id hid)
      · rw [if_neg hid]
        rfl
  | cons x xs ih =>
      obtain ⟨hlookup, hpending⟩ := file_spec h x id
      obtain ⟨hlookups, hpendings⟩ := ih (isBalanced_file h x)
      show ((l.file x).fileAll xs).mailbox.lookup id = _
        ∧ (id ∈ ((l.file x).fileAll xs).pending ↔ _)
      rw [hlookups, hpendings, hlookup, List.findSome?_cons]
      by_cases hid : id ∈ l.pending
      · cases hdecides : decides id x <;> simp [hpending, hid, hdecides]
      · simp [hpending, hid]

end Ledger

/-! ## §5. What a run keeps. -/

/-- The ledger with more pending requests. -/
def Ledger.enter (l : Ledger) (ids : List UInt64) : Ledger := ⟨l.pending ++ ids, l.mailbox⟩

/-- What holds of a session behind some events: `ids` are the requests that were
sent, and at most `spent` ids are used up. -/
structure IsCorrelated (s : Session) (ids : List UInt64) (spent : Nat) : Prop where
  steady : s.IsSteady
  balanced : s.ledger.IsBalanced ids
  nextId : s.nextId = UInt64.ofNat (spent + 1)
  ascending : ids.Pairwise (· < ·)
  bounded : ∀ id ∈ ids, id.toNat ≤ spent

theorem isCorrelated_attached : IsCorrelated attached [] 0 :=
  ⟨isSteady_attached, ⟨fun _ => by simp [ledger, attached, Ledger.filed], nofun,
    List.nodup_nil, List.nodup_nil⟩, rfl, List.Pairwise.nil, nofun⟩

section

variable {s : Session} {ids : List UInt64} {spent : Nat}

/-- The next id is greater than all before, as long as ids last. -/
theorem nextId_fresh (h : IsCorrelated s ids spent) (hfew : spent + 1 < UInt64.size) :
    s.nextId.toNat = spent + 1 ∧ (∀ id ∈ ids, id < s.nextId) ∧ s.nextId ∉ ids := by
  have hnext : s.nextId.toNat = spent + 1 := by
    rw [h.nextId, UInt64.toNat_ofNat']
    exact Nat.mod_eq_of_lt hfew
  have hless : ∀ id ∈ ids, id < s.nextId := by
    intro id hid
    have hle := h.bounded id hid
    rw [UInt64.lt_iff_toNat_lt]
    omega
  refine ⟨hnext, hless, ?_⟩
  intro hmem
  exact absurd (hless s.nextId hmem) (UInt64.lt_irrefl s.nextId)

theorem isBalanced_enter {l : Ledger} {id : UInt64} (h : l.IsBalanced ids) (hfresh : id ∉ ids) :
    (l.enter [id]).IsBalanced (ids ++ [id]) := by
  have hpending : id ∉ l.pending := fun hid => hfresh ((h.mem_iff id).2 (.inl hid))
  have hfiled : id ∉ l.filed := fun hid => hfresh ((h.mem_iff id).2 (.inr hid))
  constructor
  · intro x
    show x ∈ ids ++ [id] ↔ x ∈ l.pending ++ [id] ∨ x ∈ l.filed
    rw [List.mem_append, List.mem_append, h.mem_iff]
    exact or_right_comm
  · intro x hx
    show x ∉ l.filed
    rcases List.mem_append.1 hx with hx | hx
    · exact h.apart x hx
    · rw [List.mem_singleton.1 hx]
      exact hfiled
  · show (l.pending ++ [id]).Nodup
    rw [List.nodup_append]
    refine ⟨h.pending_nodup, List.pairwise_singleton _ id, ?_⟩
    rintro a ha b hb rfl
    rw [List.mem_singleton.1 hb] at ha
    exact hpending ha
  · exact h.filed_nodup

/-- What one event does to a correlated session: what comes in is filed, and the
id of a new handle is entered. -/
def Follows (s : Session) (ids : List UInt64) (spent : Nat) (e : Event) : Prop :=
  (s.step e).ledger = (s.ledger.fileAll (s.inbound e)).enter (s.issued e).toList
    ∧ (∀ id ∈ s.issued e, id ∉ ids)
    ∧ ∃ spent', spent' ≤ spent + dispatches [e]
        ∧ IsCorrelated (s.step e) (ids ++ (s.issued e).toList) spent'

theorem nextId_succ (h : IsCorrelated s ids spent) :
    s.nextId + 1 = UInt64.ofNat (spent + 1 + 1) := by
  rw [h.nextId]
  exact (UInt64.ofNat_add (spent + 1) 1).symm

/-- A dispatch that fails leaves the ledger alone, and may use up an id. -/
theorem follows_of_failure (h : IsCorrelated s ids spent) {form : Value} {package : String}
    {thread : Thread} (hinbound : s.inbound (.dispatch form package thread) = [])
    (hledger : (s.dispatch form package thread).2.ledger = s.ledger)
    (herror : ∃ e, (s.dispatch form package thread).1 = .error e)
    (hid : (s.dispatch form package thread).2.nextId = s.nextId
      ∨ (s.dispatch form package thread).2.nextId = s.nextId + 1) :
    Follows s ids spent (.dispatch form package thread) := by
  have hsteady := isSteady_dispatch h.steady form package thread
  have hissued : s.issued (.dispatch form package thread) = none := by
    obtain ⟨e, he⟩ := herror
    rw [issued, he]
  have hstep : s.step (.dispatch form package thread)
      = (s.dispatch form package thread).2 := rfl
  have hbalanced : (s.dispatch form package thread).2.ledger.IsBalanced ids :=
    hledger ▸ h.balanced
  unfold Follows
  rw [hissued, hinbound, hstep, Option.toList_none, List.append_nil]
  refine ⟨by rw [hledger]; simp [Ledger.enter, Ledger.fileAll], nofun, ?_⟩
  -- the id is spent unless the session was closed
  rcases hid with hid | hid
  · exact ⟨spent, Nat.le_succ spent, hsteady, hbalanced, hid.trans h.nextId, h.ascending,
      h.bounded⟩
  · exact ⟨spent + 1, Nat.le_refl _, hsteady, hbalanced, hid.trans (nextId_succ h), h.ascending,
      fun id hmem => Nat.le_succ_of_le (h.bounded id hmem)⟩

/-- A dispatch that succeeds enters the next id, which is new. -/
theorem follows_of_success (h : IsCorrelated s ids spent) (hfew : spent + 1 < UInt64.size)
    {form : Value} {package : String} {thread : Thread}
    (hinbound : s.inbound (.dispatch form package thread) = [])
    (hok : (s.dispatch form package thread).1 = .ok ⟨s.nextId, s.timeout⟩)
    (hid : (s.dispatch form package thread).2.nextId = s.nextId + 1)
    (hledger : (s.dispatch form package thread).2.ledger = s.ledger.enter [s.nextId]) :
    Follows s ids spent (.dispatch form package thread) := by
  have hsteady := isSteady_dispatch h.steady form package thread
  have hissued : s.issued (.dispatch form package thread) = some s.nextId := by
    rw [issued, hok]
  have hstep : s.step (.dispatch form package thread)
      = (s.dispatch form package thread).2 := rfl
  obtain ⟨hnext, hless, hfresh⟩ := nextId_fresh h hfew
  unfold Follows
  rw [hissued, hinbound, hstep, Option.toList_some]
  refine ⟨hledger, ?_, spent + 1, Nat.le_refl _, hsteady, ?_, hid.trans (nextId_succ h), ?_, ?_⟩
  · rintro id ⟨⟩
    exact hfresh
  · rw [hledger]
    exact isBalanced_enter h.balanced hfresh
  · rw [List.pairwise_append]
    refine ⟨h.ascending, List.pairwise_singleton _ _, ?_⟩
    intro a ha b hb
    rw [List.mem_singleton.1 hb]
    exact hless a ha
  · intro id hmem
    rcases List.mem_append.1 hmem with hmem | hmem
    · exact Nat.le_succ_of_le (h.bounded id hmem)
    · rw [List.mem_singleton.1 hmem]
      exact Nat.le_of_eq hnext

/-- Any other event files what comes in. -/
theorem follows_of_inbound (h : IsCorrelated s ids spent) {e : Event}
    (he : ∀ form package thread, e ≠ .dispatch form package thread) :
    Follows s ids spent e := by
  obtain ⟨hledger, hid⟩ := ledger_step h.steady e he
  have hissued : s.issued e = none := by
    cases e with
    | dispatch form package thread => exact absurd rfl (he form package thread)
    | _ => rfl
  have hbalanced : (s.step e).ledger.IsBalanced ids := by
    rw [hledger]
    exact Ledger.isBalanced_fileAll h.balanced _
  unfold Follows
  rw [hissued, Option.toList_none, List.append_nil]
  refine ⟨by rw [hledger]; simp [Ledger.enter], nofun, spent, Nat.le_add_right _ _, ?_⟩
  exact ⟨isSteady_step h.steady e, hbalanced, hid.trans h.nextId, h.ascending, h.bounded⟩

/-- **One event**: what comes in is filed, the id of a new handle is entered, and
the run stays correlated. -/
theorem follows_step (h : IsCorrelated s ids spent) (e : Event)
    (hfew : spent + dispatches [e] < UInt64.size) : Follows s ids spent e := by
  cases e with
  | dispatch form package thread =>
      have hinbound : s.inbound (.dispatch form package thread) = [] := by
        rw [inbound]
        split <;> rfl
      rcases dispatch_cases h.steady form package thread with
        ⟨hledger, herror, hid⟩ | ⟨hok, hid, hledger⟩
      · exact follows_of_failure h hinbound hledger herror hid
      · exact follows_of_success h hfew hinbound hok hid hledger
  | _ => exact follows_of_inbound h nofun

end

/-- **What one event does to a request that was sent before**: a pending one gets
the outcome that is meant for it and is pending no more, or nothing happens to
it. -/
theorem lookup_step {s : Session} {ids : List UInt64} {spent : Nat} {e : Event}
    (h : IsCorrelated s ids spent) (hstep : Follows s ids spent e) {id : UInt64}
    (hid : id ∈ ids) :
    (s.step e).mailbox.lookup id
        = (if id ∈ s.pending then (s.inbound e).findSome? (decides id)
          else s.mailbox.lookup id)
      ∧ (id ∈ (s.step e).pending
          ↔ id ∈ s.pending ∧ (s.inbound e).findSome? (decides id) = none) := by
  obtain ⟨hledger, hfresh, _⟩ := hstep
  obtain ⟨hlookup, hpending⟩ := Ledger.fileAll_spec h.balanced (s.inbound e) id
  constructor
  · show (s.step e).ledger.mailbox.lookup id = _
    rw [hledger]
    exact hlookup
  · show id ∈ (s.step e).ledger.pending ↔ _
    rw [hledger]
    show id ∈ _ ++ _ ↔ _
    rw [List.mem_append, or_iff_left]
    · exact hpending
    · -- a request that was sent before is not the new one
      intro hnew
      exact hfresh id (Option.mem_toList.1 hnew) hid

theorem dispatches_cons (e : Event) (es : List Event) :
    dispatches (e :: es) = dispatches [e] + dispatches es := by
  unfold dispatches
  rw [← List.countP_append]
  rfl

/-- **A run**: it stays correlated, and each request that was sent before has the
outcome that the first thing to decide it means. -/
theorem isCorrelated_steps (es : List Event) :
    ∀ {s : Session} {ids : List UInt64} {spent : Nat}, IsCorrelated s ids spent →
      spent + dispatches es < UInt64.size →
      (∃ spent', spent' ≤ spent + dispatches es
          ∧ IsCorrelated (s.steps es) (ids ++ s.issuedOver es) spent') ∧
        ∀ id ∈ ids, (s.steps es).mailbox.lookup id =
          if id ∈ s.pending then (s.inboundOver es).findSome? (decides id)
          else s.mailbox.lookup id := by
  induction es with
  | nil =>
      intro s ids spent h _
      refine ⟨⟨spent, Nat.le_refl _, ?_⟩, ?_⟩
      · rw [issuedOver, List.append_nil]
        exact h
      · intro id _
        exact (Ledger.fileAll_spec h.balanced [] id).1
  | cons e es ih =>
      intro s ids spent h hfew
      rw [dispatches_cons] at hfew ⊢
      have hfew₁ : spent + dispatches [e] < UInt64.size := by omega
      obtain ⟨_, _, spent₁, hspent₁, h₁⟩ := follows_step h e hfew₁
      obtain ⟨⟨spent', hspent', h'⟩, hrest⟩ := ih h₁ (by omega)
      refine ⟨⟨spent', by omega, ?_⟩, ?_⟩
      · rw [issuedOver, ← List.append_assoc]
        exact h'
      · intro id hid
        obtain ⟨hlookup, hpending⟩ := lookup_step h (follows_step h e hfew₁) hid
        rw [steps_cons, hrest id (List.mem_append_left _ hid), hlookup, inboundOver,
          List.findSome?_append]
        -- a pending request is decided by this event or left to the later ones
        by_cases hwas : id ∈ s.pending
        · rw [if_pos hwas, if_pos hwas]
          cases hdecided : (s.inbound e).findSome? (decides id) with
          | none =>
              rw [if_pos (hpending.2 ⟨hwas, hdecided⟩)]
              rfl
          | some o =>
              rw [if_neg]
              · rfl
              · intro hstill
                have hundecided := (hpending.1 hstill).2
                rw [hdecided] at hundecided
                cases hundecided
        · -- a request that has its outcome keeps it
          rw [if_neg hwas, if_neg hwas, if_neg]
          intro hstill
          exact hwas (hpending.1 hstill).1

/-! ## §6. Requests and their outcomes. -/

/-- How the requests of a run and their outcomes belong together. -/
structure Correlates (es : List Event) : Prop where
  /-- The ids of the handles ascend in the order of the calls. -/
  ascending : (attached.issuedOver es).Pairwise (· < ·)
  /-- No handle gets two outcomes, and no outcome comes without a handle. -/
  single : ((run es).mailbox.map Prod.fst).Nodup
    ∧ ∀ id ∈ (run es).mailbox.map Prod.fst, id ∈ attached.issuedOver es
  /-- The outcome of a request is what the first thing to come in behind its
  dispatch says that decides it. -/
  decided : ∀ before form package thread h after,
    es = before ++ .dispatch form package thread :: after →
    ((run before).dispatch form package thread).1 = .ok h →
    (run es).mailbox.lookup h.id
      = ((run (before ++ [.dispatch form package thread])).inboundOver after).findSome?
          (decides h.id)
  /-- Pending are the requests with a handle and without an outcome, each once. -/
  pending_iff : (run es).pending.Nodup ∧ ∀ id, id ∈ (run es).pending ↔
    id ∈ attached.issuedOver es ∧ (run es).mailbox.lookup id = none
  /-- A frame that does not decide a request changes nothing for it. -/
  others : ∀ payload id, (∀ x ∈ inboundText payload, decides id x = none) →
    (id ∈ (run (es ++ [.frame payload])).pending ↔ id ∈ (run es).pending)
      ∧ (run (es ++ [.frame payload])).mailbox.lookup id = (run es).mailbox.lookup id

theorem isCorrelated_run (es : List Event) (hfew : dispatches es < UInt64.size) :
    ∃ spent, spent ≤ dispatches es
      ∧ IsCorrelated (run es) (attached.issuedOver es) spent := by
  have hfew' : 0 + dispatches es < UInt64.size := by
    rw [Nat.zero_add]
    exact hfew
  obtain ⟨⟨spent, hspent, h⟩, _⟩ := isCorrelated_steps es isCorrelated_attached hfew'
  rw [Nat.zero_add] at hspent
  exact ⟨spent, hspent, h⟩

theorem dispatches_append (as bs : List Event) :
    dispatches (as ++ bs) = dispatches as + dispatches bs := List.countP_append

/-- The outcome of a request that was just sent is decided by the rest of the
run. -/
theorem lookup_of_dispatch {before after : List Event} {form : Value} {package : String}
    {thread : Thread} {handle : Handle}
    (hfew : dispatches (before ++ .dispatch form package thread :: after) < UInt64.size)
    (hok : ((run before).dispatch form package thread).1 = .ok handle) :
    (run (before ++ .dispatch form package thread :: after)).mailbox.lookup handle.id
      = ((run (before ++ [.dispatch form package thread])).inboundOver after).findSome?
          (decides handle.id) := by
  rw [dispatches_append, dispatches_cons] at hfew
  obtain ⟨spent, hspent, h⟩ := isCorrelated_run before (by omega)
  obtain ⟨hledger, _, spent', hspent', h'⟩ :=
    follows_step h (.dispatch form package thread) (by omega)
  have hissued : (run before).issued (.dispatch form package thread) = some handle.id := by
    rw [issued, hok]
  have hrun : run (before ++ [.dispatch form package thread])
      = (run before).step (.dispatch form package thread) := steps_append _ _ _
  have hpending : handle.id ∈ (run (before ++ [.dispatch form package thread])).pending := by
    rw [hrun, show ((run before).step (.dispatch form package thread)).pending = _ from
      congrArg Ledger.pending hledger, hissued]
    exact List.mem_append_right _ (List.mem_singleton_self _)
  rw [hissued] at h'
  have hlookup := (isCorrelated_steps after h' (by omega)).2 handle.id
    (List.mem_append_right _ (List.mem_singleton_self _))
  rw [← hrun, if_pos hpending] at hlookup
  rw [← hlookup, run, steps_append, hrun]
  rfl

theorem findSome?_eq_none_of_undecided {id : UInt64} {xs : List Inbound}
    (h : ∀ x ∈ xs, decides id x = none) : xs.findSome? (decides id) = none :=
  List.findSome?_eq_none_iff.2 h

/-- **Every request gets the outcome that is meant for it**, in every run with
fewer dispatches than there are ids. -/
theorem correlates_run (es : List Event) (hfew : dispatches es < UInt64.size) : Correlates es := by
  obtain ⟨spent, _, h⟩ := isCorrelated_run es hfew
  have hnone : ∀ id, (run es).mailbox.lookup id = none ↔ id ∉ (run es).ledger.filed :=
    fun id => Ledger.lookup_eq_none_iff (l := (run es).ledger)
  constructor
  case ascending => exact h.ascending
  case single =>
    exact ⟨h.balanced.filed_nodup, fun id hid => (h.balanced.mem_iff id).2 (.inr hid)⟩
  case decided =>
    rintro before form package thread handle after rfl hok
    exact lookup_of_dispatch hfew hok
  case pending_iff =>
    refine ⟨h.balanced.pending_nodup, fun id => ?_⟩
    rw [hnone, h.balanced.mem_iff]
    constructor
    · intro hid
      exact ⟨.inl hid, h.balanced.apart id hid⟩
    · rintro ⟨hid | hid, hnot⟩
      · exact hid
      · exact absurd hid hnot
  case others =>
    intro payload id hundecided
    have hrun : run (es ++ [.frame payload]) = (run es).step (.frame payload) :=
      steps_append _ _ _
    obtain ⟨hledger, _⟩ := ledger_step h.steady (.frame payload) nofun
    -- a frame that decides nothing for the request, or one that nobody reads
    have hquiet : ((run es).inbound (.frame payload)).findSome? (decides id) = none := by
      apply findSome?_eq_none_of_undecided
      rw [inbound]
      split
      · exact nofun
      · exact hundecided
    obtain ⟨hlookup, hpending⟩ :=
      Ledger.fileAll_spec h.balanced ((run es).inbound (.frame payload)) id
    rw [← hledger] at hlookup hpending
    rw [hrun]
    refine ⟨hpending.trans (and_iff_left hquiet), hlookup.trans ?_⟩
    by_cases hid : id ∈ (run es).ledger.pending
    · rw [if_pos hid, hquiet]
      exact ((hnone id).2 (h.balanced.apart id hid)).symm
    · rw [if_neg hid]
      rfl

/-- An event that returns a handle with that id is a dispatch. -/
theorem exists_of_issued {s : Session} {form : Value} {package : String} {thread : Thread}
    {id : UInt64} (h : s.issued (.dispatch form package thread) = some id) :
    ∃ timeout, (s.dispatch form package thread).1 = .ok ⟨id, timeout⟩ := by
  rw [issued] at h
  split at h
  · next handle hok =>
      cases h
      exact ⟨handle.timeout, hok⟩
  · cases h

/-- Four requests, of which the editor gives up the first.  Their answers come out of
order, one of them twice and one for nobody; a complaint is about the third, and the
fourth is still pending when the image hangs up. -/
theorem correlates_out_of_order :
    let send : Event := .dispatch (.call "swank:x" []) "CL-USER" .any
    let es : List Event :=
      [send, send, .giveUp 1, .frame "(:return (:ok :second) 2)",
        .frame "(:return (:ok :again) 2)", send, send, .frame "(:return (:ok t) 7)",
        .read (Text.utf8 "00001a(:return (:abort \"why\") 1)"),
        .frame "(:invalid-rpc 3 \"what\")", .endOfStream]
    dispatches es < UInt64.size ∧ Correlates es ∧ attached.issuedOver es = [1, 2, 3, 4]
      ∧ (run es).mailbox.lookup 1 = some (.error (.aborted "why"))
      ∧ (run es).mailbox.lookup 2 = some (.ok (.keyword "second"))
      ∧ (run es).mailbox.lookup 3 = some (.error (.invalidRequest "what"))
      ∧ (run es).mailbox.lookup 4 = some (.error .closed) := by
  intro send es
  have hfew : dispatches es < UInt64.size := by decide
  have h := correlates_run es hfew
  -- each outcome is looked up behind the dispatch of its request
  have hlookup : ∀ before after id o, es = before ++ send :: after →
      (run before).issued send = some id →
      (∃ o' ∈ ((run (before ++ [send])).inboundOver after).findSome? (decides id), o' = o) →
      (run es).mailbox.lookup id = some o := by
    rintro before after id o heq hissued ⟨o, ho, rfl⟩
    obtain ⟨timeout, hok⟩ := exists_of_issued hissued
    exact (h.decided before _ _ _ ⟨id, timeout⟩ after heq hok).trans ho
  exact ⟨hfew, h, by decide, hlookup [] (es.drop 1) 1 _ rfl (by decide) (by decide),
    hlookup [send] (es.drop 2) 2 _ rfl (by decide) (by decide),
    hlookup (es.take 5) (es.drop 6) 3 _ rfl (by decide) (by decide),
    hlookup (es.take 6) (es.drop 7) 4 _ rfl (by decide) (by decide)⟩

end LispLink.Session
