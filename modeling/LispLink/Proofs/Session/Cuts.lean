/-
  LispLink.Proofs.Session.Cuts
  ────────────────────────────────
  **WAYS TO CUT A STREAM.**

  A cut is a run of reads that bring certain bytes, and pings may be answered
  anywhere in between.  When they are answered makes no difference as long as
  the session stays open, or if nothing is owed.  But a session that goes down
  writes no more, so what it owes by then is lost:

      reads first, answers last     loses all answers
      an answer before every byte   loses none
-/
import LispLink.Proofs.Session.Reads

namespace LispLink.Session

open Wire

/-! ## §1. Cuts. -/

/-- The bytes that an event brings. -/
def Event.chunk? : Event → Option (List UInt8)
  | .read c => some c
  | _ => none

/-- The reads among several events. -/
def chunksOf (es : List Event) : List (List UInt8) := es.filterMap Event.chunk?

/-- Whether events bring exactly those bytes, in reads between which pings may be
answered. -/
inductive IsCut : List UInt8 → List Event → Prop where
  | nil : IsCut [] []
  | read {c bytes : List UInt8} {cut : List Event} :
      IsCut bytes cut → IsCut (c ++ bytes) (.read c :: cut)
  | answer {bytes : List UInt8} {cut : List Event} :
      IsCut bytes cut → IsCut bytes (.answerPings :: cut)

/-- The cut that answers pings before every byte. -/
def byteCut (bytes : List UInt8) : List Event :=
  bytes.flatMap fun b => [.answerPings, .read [b]]

theorem flatten_chunksOf {bytes : List UInt8} {cut : List Event} (h : IsCut bytes cut) :
    (chunksOf cut).flatten = bytes := by
  induction h with
  | nil => rfl
  | read _ ih => exact congrArg _ ih
  | answer _ ih => exact ih

theorem isCut_reads {chunks : List (List UInt8)} {bytes : List UInt8}
    (h : chunks.flatten = bytes) : IsCut bytes (chunks.map .read) := by
  subst h
  induction chunks with
  | nil => exact .nil
  | cons c cs ih => exact .read ih

theorem isCut_byteCut (bytes : List UInt8) : IsCut bytes (byteCut bytes) := by
  induction bytes with
  | nil => exact .nil
  | cons b bytes ih => exact .answer (.read (c := [b]) ih)

theorem steps_reads (s : Session) (chunks : List (List UInt8)) :
    s.steps (chunks.map .read) = s.reads chunks := by
  unfold steps reads
  rw [List.foldl_map]
  rfl

/-! ## §2. Answers in between. -/

/-- What anyone can see of a session once it has answered its pings: the outcomes
given, the notices, the frames written, and what is pending. -/
def view (s : Session) : Session := s.answerPings.forget

/-- The place in the stream is not to be seen. -/
theorem view_eq_of_forget {s s' : Session} (h : s.forget = s'.forget) : s.view = s'.view := by
  have hview : s.forget.view = s'.forget.view := congrArg view h
  exact hview

/-- Where nothing is owed there is nothing to answer. -/
theorem answerPings_of_paid {s : Session} (h : s.owed = []) : s.answerPings = s := by
  obtain ⟨frames, writable, closed, nextId, pending, mailbox, outbox, owed, notices, timeout,
    package, info⟩ := s
  cases h
  unfold answerPings
  simp

/-- What is answered first is written first, and the reads behind it do the
rest. -/
theorem reads_answerPings {s : Session} (h : s.IsSteady) (ho : s.closed = false)
    (chunks : List (List UInt8)) :
    s.answerPings.reads chunks
      = { s.reads chunks with
          outbox := s.outbox ++ s.owed
          owed := (s.free.reads chunks).owed } := by
  have hw : s.writable = true := writable_of_open h ho
  have hanswered : s.answerPings = s.free.carry (s.outbox ++ s.owed) [] := by
    unfold answerPings carry free
    simp [hw]
  have hfree : (s.free.reads chunks).outbox = [] := outbox_reads s.free chunks
  rw [hanswered, reads_carry, reads_free s]
  unfold carry
  dsimp only
  rw [hfree, List.append_nil, List.nil_append]

theorem view_of_open {s : Session} (h : s.IsSteady) (ho : s.closed = false) :
    s.view = { s with frames := .new, outbox := s.outbox ++ s.owed, owed := [] } := by
  have hw : s.writable = true := writable_of_open h ho
  unfold view answerPings forget
  rw [if_pos hw]

/-- As long as nothing comes to be owed, answers in between change nothing. -/
theorem steps_of_paid {s : Session} {bytes : List UInt8} {cut : List Event}
    (h : IsCut bytes cut) (hpaid : (s.reads (chunksOf cut)).owed = []) :
    s.steps cut = s.reads (chunksOf cut) := by
  induction h generalizing s with
  | nil => rfl
  | @read c bytes cut _ ih => exact ih (s := s.receive c) hpaid
  | @answer bytes cut _ ih =>
      -- what is owed now would still be owed behind the reads
      have hreads : chunksOf (.answerPings :: cut) = chunksOf cut := rfl
      rw [hreads] at hpaid ⊢
      have howed : s.owed = [] := by
        rw [owed_reads] at hpaid
        exact (List.append_eq_nil_iff.1 hpaid).1
      show s.answerPings.steps cut = _
      rw [answerPings_of_paid howed]
      exact ih hpaid

/-- As long as the session stays open, answers in between come out the same. -/
theorem view_steps_of_open {s : Session} {bytes : List UInt8} {cut : List Event}
    (h : IsCut bytes cut) (hs : s.IsSteady)
    (ho : (s.reads (chunksOf cut)).closed = false) :
    (s.steps cut).view = (s.reads (chunksOf cut)).view := by
  induction h generalizing s with
  | nil => rfl
  | @read c bytes cut _ ih => exact ih (s := s.receive c) (isSteady_receive hs c) ho
  | @answer bytes cut _ ih =>
      have hreads : chunksOf (.answerPings :: cut) = chunksOf cut := rfl
      rw [hreads] at ho ⊢
      have hopen : s.closed = false := by
        cases hc : s.closed with
        | false => rfl
        | true =>
            rw [reads_of_closed hc] at ho
            exact hc.symm.trans ho
      have hsame : (s.answerPings.reads (chunksOf cut)).view
          = (s.reads (chunksOf cut)).view := by
        have hopen' : (s.answerPings.reads (chunksOf cut)).closed = false := by
          rw [reads_answerPings hs hopen]
          exact ho
        rw [view_of_open (isSteady_reads (isSteady_answerPings hs) _) hopen',
          view_of_open (isSteady_reads hs _) ho, outbox_reads s, owed_reads s,
          ← List.append_assoc, reads_answerPings hs hopen]
      rw [← hsame]
      refine ih (isSteady_answerPings hs) ?_
      show (s.answerPings.reads (chunksOf cut)).closed = false
      rw [reads_answerPings hs hopen]
      exact ho

/-! ## §3. An answer before every byte. -/

/-- A read of one byte that ends the session brings no ping. -/
theorem owed_of_byte {s : Session} (h : s.IsSteady) (ho : s.closed = false) (b : UInt8)
    (hc : (s.receive [b]).closed = true) : (s.receive [b]).owed = s.owed := by
  rcases receive_cases h ho [b] with ⟨r, hpush, _, hreceive⟩ | ⟨header, r, _, hreceive⟩
  · rw [FrameReader.pushAll_cons] at hpush
    rcases FrameReader.push_cases (h.sound ho) b with ⟨r', hb, _⟩ | ⟨header, _, hb⟩
    · rw [hb] at hpush
      cases hpush
      rw [hreceive] at hc ⊢
      rcases FrameReader.complete_of_push hb with hnone | ⟨payload, hone⟩
      · rw [hnone, h.drained ho, handleAll_nil]
      · rw [hone, h.drained ho, List.nil_append] at hc ⊢
        cases htext : Text.ofUtf8? payload with
        | none =>
            rw [handleAll_noText htext]
            exact owed_shutDown _ _
        | some text =>
            -- a frame that is text leaves the session open
            rw [handleAll_text htext, handleAll_nil, closed_handle] at hc
            exact absurd (ho.symm.trans hc) Bool.false_ne_true
    · rw [hb] at hpush
      cases hpush
  · rw [hreceive]
    exact owed_shutDown _ _

/-- **Answered before every byte, every ping is answered.** -/
theorem outbox_byteCut {s : Session} (h : s.IsSteady) (ho : s.closed = false)
    (bytes : List UInt8) :
    (s.steps (byteCut bytes)).view.outbox
      = s.outbox ++ (s.reads (bytes.map fun b => [b])).owed := by
  induction bytes generalizing s with
  | nil =>
      rw [show s.steps (byteCut []) = s from rfl, view_of_open h ho]
      rfl
  | cons b bytes ih =>
      have hsteady := isSteady_receive (isSteady_answerPings h) [b]
      have hsplit : s.steps (byteCut (b :: bytes))
          = (s.answerPings.receive [b]).steps (byteCut bytes) := rfl
      have hread : s.answerPings.receive [b] = _ := reads_answerPings h ho [[b]]
      have houtbox : (s.answerPings.receive [b]).outbox = s.outbox ++ s.owed := by
        rw [hread]
      rw [hsplit, List.map_cons, reads_cons]
      cases hc : (s.answerPings.receive [b]).closed with
      | true =>
          -- all that was owed before the byte is answered, and it owes nothing itself
          have hpaid : (s.answerPings.receive [b]).owed = [] :=
            owed_of_byte (isSteady_answerPings h) ho b hc
          have hstays := reads_of_closed hc (chunksOf (byteCut bytes))
          have hdown : (s.receive [b]).closed = true := by
            rw [hread] at hc
            exact hc
          rw [steps_of_paid (isCut_byteCut bytes) (by rw [hstays]; exact hpaid), hstays,
            reads_of_closed hdown, owed_of_byte h ho b hdown, ← houtbox]
          show (s.answerPings.receive [b]).answerPings.outbox = _
          rw [answerPings_of_paid hpaid]
      | false =>
          -- the answers of before are written, and the others come behind them
          have howed : ((s.answerPings.receive [b]).reads (bytes.map fun b => [b])).owed
              = ((s.free.receive [b]).reads (bytes.map fun b => [b])).owed := by
            rw [← reads_cons, reads_answerPings h ho]
            rfl
          have hall : ((s.receive [b]).reads (bytes.map fun b => [b])).owed
              = s.owed ++ ((s.free.receive [b]).reads (bytes.map fun b => [b])).owed :=
            owed_reads s ([b] :: bytes.map fun b => [b])
          rw [ih hsteady hc, houtbox, howed, hall, List.append_assoc]

end LispLink.Session
