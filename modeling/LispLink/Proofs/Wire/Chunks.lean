/-
  LispLink.Proofs.Wire.Chunks
  ────────────────────────────────
  **CHUNKS OF A STREAM.**

  Where a stream is cut into chunks makes no difference to a reader:

      feed (as ++ bs)  =  feed as, and then feed bs unless that failed

  Only an invalid header can go wrong.  Behind it every chunk is refused, and
  the payloads that were complete before it are still there to be taken.  Nor
  does it matter when payloads are taken: what taking delivers between the
  chunks, and what is left then, is what the bare chunks leave to be taken.
-/
import LispLink.Proofs.Wire.Stream

namespace LispLink.Wire.FrameReader

/-! ## §1. Scripts. -/

/-- What is asked of a reader: to take a chunk in, or to hand a payload out. -/
inductive Op where
  | feed (bytes : List UInt8)
  | take
  deriving DecidableEq, Repr

/-- The reader behind one operation. -/
def perform (r : FrameReader) : Op → FrameReader
  | .feed bytes => (r.feed bytes).2
  | .take => r.take.2

/-- The reader behind a script. -/
def after (r : FrameReader) (ops : List Op) : FrameReader := ops.foldl perform r

@[simp] theorem after_nil (r : FrameReader) : r.after [] = r := rfl

@[simp] theorem after_cons (r : FrameReader) (op : Op) (ops : List Op) :
    r.after (op :: ops) = (r.perform op).after ops := rfl

/-- How the chunks of a script are received, in order. -/
def fed (r : FrameReader) : List Op → List (Except FrameError Unit)
  | [] => []
  | .feed bytes :: ops => (r.feed bytes).1 :: (r.feed bytes).2.fed ops
  | .take :: ops => r.take.2.fed ops

/-- What taking returns in a script, in order. -/
def taken (r : FrameReader) : List Op → List (Except FrameError (Option String))
  | [] => []
  | .feed bytes :: ops => (r.feed bytes).2.taken ops
  | .take :: ops => r.take.1 :: r.take.2.taken ops

/-- What one taking delivers: a payload, the word that one is no text, or nothing
because no payload is complete. -/
def delivery? : Except FrameError (Option String) → Option (Except FrameError String)
  | .ok none => none
  | .ok (some payload) => some (.ok payload)
  | .error e => some (.error e)

/-- What taking delivers in a script, in order. -/
def delivered (r : FrameReader) (ops : List Op) : List (Except FrameError String) :=
  (r.taken ops).filterMap delivery?

/-- The payloads that are taken away in a script, in order. -/
def drawn (r : FrameReader) : List Op → List (List UInt8)
  | [] => []
  | .feed bytes :: ops => (r.feed bytes).2.drawn ops
  | .take :: ops => r.complete.take 1 ++ r.take.2.drawn ops

/-- What a complete payload is delivered as. -/
def delivery (bytes : List UInt8) : Except FrameError String :=
  match Text.ofUtf8? bytes with
  | some payload => .ok payload
  | none => .error .invalidUtf8

/-- What the complete payloads are going to be delivered as, oldest first. -/
def waiting (r : FrameReader) : List (Except FrameError String) := r.complete.map delivery

/-- A script of which only the chunks are left. -/
def withoutTaking (ops : List Op) : List Op := ops.filter (· ≠ .take)

section

variable (r : FrameReader) (bytes : List UInt8) (ops : List Op)

@[simp] theorem delivered_nil : r.delivered [] = [] := rfl

@[simp] theorem delivered_feed :
    r.delivered (.feed bytes :: ops) = (r.feed bytes).2.delivered ops := rfl

theorem withoutTaking_feed :
    withoutTaking (.feed bytes :: ops) = .feed bytes :: withoutTaking ops := rfl

theorem withoutTaking_take : withoutTaking (.take :: ops) = withoutTaking ops := rfl

/-- Taking delivers the payload that has waited longest, if there is one. -/
theorem delivered_take :
    r.delivered (.take :: ops) = r.waiting.take 1 ++ r.take.2.delivered ops := by
  obtain ⟨phase, complete⟩ := r
  unfold delivered waiting
  cases complete with
  | nil => rfl
  | cons bytes rest =>
      have hfirst : delivery? (take ⟨phase, bytes :: rest⟩).1 = some (delivery bytes) := by
        unfold take delivery
        dsimp only
        cases Text.ofUtf8? bytes <;> rfl
      rw [taken, List.filterMap_cons, hfirst]
      rfl

/-- What is delivered is what is taken away. -/
theorem delivered_eq_drawn : r.delivered ops = (r.drawn ops).map delivery := by
  induction ops generalizing r with
  | nil => rfl
  | cons op ops ih =>
      cases op with
      | feed bytes => exact ih (r.feed bytes).2
      | take => rw [delivered_take, drawn, List.map_append, List.map_take, ih, waiting]

/-- Taking leaves the reader where it is in the stream. -/
theorem take_eq : r.take.2 = ⟨r.phase, r.complete.drop 1⟩ := by
  obtain ⟨phase, complete⟩ := r
  unfold take
  cases complete with
  | nil => rfl
  | cons bytes rest =>
      dsimp only
      cases Text.ofUtf8? bytes <;> rfl

end

/-! ## §2. One chunk in two. -/

/-- A poisoned reader refuses every chunk and stays as it is. -/
theorem feed_of_isPoisoned {r : FrameReader} (hr : r.isPoisoned = true) (bytes : List UInt8) :
    r.feed bytes = (.error .poisoned, r) := by
  rw [feed, hr]
  rfl

/-- **A chunk may be fed in two**: the first error ends both. -/
theorem feed_append (r : FrameReader) (as bs : List UInt8) :
    r.feed (as ++ bs) =
      match r.feed as with
      | (.ok _, r') => r'.feed bs
      | (.error e, r') => (.error e, r') := by
  cases hr : r.isPoisoned with
  | true => rw [feed_of_isPoisoned hr, feed_of_isPoisoned hr]
  | false =>
      rw [feed_eq_pushAll hr, feed_eq_pushAll hr, pushAll_append]
      rcases pushAll_cases hr as with ⟨r', hpush, hr'⟩ | ⟨header, r', hpush, _⟩
      · rw [hpush]
        exact (feed_eq_pushAll hr' bs).symm
      · rw [hpush]

/-- A chunk that is not received well leaves the reader poisoned. -/
theorem isPoisoned_of_feed {r : FrameReader} {bytes : List UInt8} {e : FrameError}
    (h : (r.feed bytes).1 = .error e) : (r.feed bytes).2.isPoisoned = true := by
  cases hr : r.isPoisoned with
  | true =>
      rw [feed_of_isPoisoned hr]
      exact hr
  | false =>
      rw [feed_eq_pushAll hr] at h ⊢
      rcases pushAll_cases hr bytes with ⟨r', hpush, _⟩ | ⟨header, r', hpush, hr'⟩
      · rw [hpush] at h
        cases h
      · rw [hpush]
        exact hr'

/-- A chunk is received well exactly if both its parts are, and otherwise with the
first error of the two. -/
theorem feed_append_result (r : FrameReader) (as bs : List UInt8) :
    (r.feed (as ++ bs)).2 = ((r.feed as).2.feed bs).2
      ∧ ((r.feed (as ++ bs)).1 = .ok () ↔
          (r.feed as).1 = .ok () ∧ ((r.feed as).2.feed bs).1 = .ok ())
      ∧ ∀ e, (r.feed (as ++ bs)).1 = .error e ↔
          (r.feed as).1 = .error e
            ∨ (r.feed as).1 = .ok () ∧ ((r.feed as).2.feed bs).1 = .error e := by
  rw [feed_append]
  cases hfeed : r.feed as with
  | mk result r' =>
      cases result with
      | ok _ => simp
      | error e =>
          have hr' : r'.isPoisoned = true := by
            have hpoisoned := isPoisoned_of_feed (congrArg Prod.fst hfeed)
            rw [hfeed] at hpoisoned
            exact hpoisoned
          rw [feed_of_isPoisoned hr']
          simp

/-- Bytes that are received well in one chunk are received well in any number of
chunks, and to the same effect. -/
theorem fed_chunks {r r' : FrameReader} {chunks : List (List UInt8)}
    (h : r.feed chunks.flatten = (.ok (), r')) :
    (∀ result ∈ r.fed (chunks.map .feed), result = .ok ())
      ∧ r.after (chunks.map .feed) = r' := by
  induction chunks generalizing r with
  | nil =>
      refine ⟨fun result hresult => (nomatch hresult), ?_⟩
      cases hr : r.isPoisoned with
      | true =>
          rw [feed_of_isPoisoned hr] at h
          cases h
      | false =>
          rw [feed_eq_pushAll hr] at h
          cases h
          rfl
  | cons c cs ih =>
      obtain ⟨hstate, hok, _⟩ := feed_append_result r c cs.flatten
      rw [List.flatten_cons] at h
      rw [h] at hstate hok
      obtain ⟨hfirst, hrest⟩ := hok.1 rfl
      obtain ⟨hall, hafter⟩ := ih (Prod.ext hrest hstate.symm)
      rw [List.map_cons, fed, after_cons]
      exact ⟨List.forall_mem_cons.2 ⟨hfirst, hall⟩, hafter⟩

/-! ## §3. Behind an invalid header. -/

/-- **The bytes before an error are taken in as though the chunk ended there**, and
the byte that makes the error completes no payload. -/
theorem pushAll_error_split {r r' : FrameReader} {bytes : List UInt8} {e : FrameError}
    (hr : r.isPoisoned = false) (h : r.pushAll bytes = (.error e, r')) :
    ∃ good b lost r₀, bytes = good ++ b :: lost ∧ r.pushAll good = (.ok (), r₀)
      ∧ r'.complete = r₀.complete := by
  induction bytes generalizing r with
  | nil => cases h
  | cons b bytes ih =>
      rw [pushAll_cons] at h
      rcases push_cases hr b with ⟨r₁, hpush, hr₁⟩ | ⟨header, _, hpush⟩
      · rw [hpush] at h
        obtain ⟨good, b', lost, r₀, hsplit, hgood, hcomplete⟩ := ih hr₁ h
        refine ⟨b :: good, b', lost, r₀, ?_, ?_, hcomplete⟩
        · rw [hsplit]
          rfl
        · rw [pushAll_cons, hpush]
          exact hgood
      · rw [hpush] at h
        cases h
        exact ⟨[], b, bytes, r, rfl, rfl, rfl⟩

/-- The same of a chunk: what is complete behind an invalid header is what was
complete before it. -/
theorem feed_error_split {r : FrameReader} {bytes : List UInt8} {header : String}
    (h : (r.feed bytes).1 = .error (.invalidHeader header)) :
    ∃ good b lost, bytes = good ++ b :: lost ∧ (r.feed good).1 = .ok ()
      ∧ (r.feed bytes).2.complete = (r.feed good).2.complete := by
  cases hr : r.isPoisoned with
  | true =>
      rw [feed_of_isPoisoned hr] at h
      cases h
  | false =>
      rw [feed_eq_pushAll hr] at h ⊢
      have hpush : r.pushAll bytes = (.error (.invalidHeader header), (r.pushAll bytes).2) :=
        Prod.ext h rfl
      obtain ⟨good, b, lost, r₀, hsplit, hgood, hcomplete⟩ := pushAll_error_split hr hpush
      refine ⟨good, b, lost, hsplit, ?_, ?_⟩
      · rw [feed_eq_pushAll hr, hgood]
      · rw [hcomplete, feed_eq_pushAll hr, hgood]

/-- **While nothing comes in, payloads are delivered in order**: one for each
taking, as long as there are any. -/
theorem delivered_of_idle {r : FrameReader} {ops : List Op}
    (h : r.isPoisoned = true ∨ ∀ op ∈ ops, op = .take) :
    r.delivered ops = r.waiting.take (ops.count .take)
      ∧ r.after ops = ⟨r.phase, r.complete.drop (ops.count .take)⟩ := by
  induction ops generalizing r with
  | nil => exact ⟨rfl, rfl⟩
  | cons op ops ih =>
      cases op with
      | feed bytes =>
          -- only a poisoned reader is fed here, and that changes nothing
          have hr : r.isPoisoned = true := by
            rcases h with hr | hall
            · exact hr
            · exact absurd (hall _ List.mem_cons_self) Op.noConfusion
          have hcount : (Op.feed bytes :: ops).count .take = ops.count .take :=
            List.count_cons_of_ne Op.noConfusion
          rw [delivered_feed, after_cons, perform, feed_of_isPoisoned hr, hcount]
          exact ih (.inl hr)
      | take =>
          have hrest : r.take.2.isPoisoned = true ∨ ∀ op ∈ ops, op = .take := by
            rw [take_eq]
            exact h.imp id fun hall op hop => hall op (List.mem_cons_of_mem _ hop)
          obtain ⟨hdelivered, hafter⟩ := ih hrest
          rw [delivered_take, after_cons, perform, hdelivered, hafter, List.count_cons_self, take_eq]
          constructor
          · show r.waiting.take 1 ++ ((r.complete.drop 1).map delivery).take _ = _
            rw [List.map_drop, Nat.add_comm, List.take_add]
            rfl
          · rw [List.drop_drop, Nat.add_comm]

/-- Behind a chunk with an invalid header every other chunk is refused, whatever is
taken in between. -/
theorem isPoisoned_after {r : FrameReader} (hr : r.isPoisoned = true) (ops : List Op) :
    (r.after ops).isPoisoned = true := by
  rw [(delivered_of_idle (.inl hr)).2]
  exact hr

/-! ## §4. Taking in between. -/

/-- Waiting payloads stay in front of the new ones and change nothing else. -/
theorem feed_eq (r : FrameReader) (bytes : List UInt8) :
    r.feed bytes = prepend r.complete (feed ⟨r.phase, []⟩ bytes) := by
  have hphase : isPoisoned ⟨r.phase, []⟩ = r.isPoisoned := rfl
  unfold feed
  rw [hphase]
  split
  · simp [prepend]
  · exact pushAll_eq r bytes

/-- The same of a script of chunks. -/
theorem after_withoutTaking_eq (r : FrameReader) (ops : List Op) :
    r.after (withoutTaking ops)
        = ⟨(after ⟨r.phase, []⟩ (withoutTaking ops)).phase,
            r.complete ++ (after ⟨r.phase, []⟩ (withoutTaking ops)).complete⟩
      ∧ r.fed (withoutTaking ops) = fed ⟨r.phase, []⟩ (withoutTaking ops) := by
  induction ops generalizing r with
  | nil => simp [withoutTaking, fed]
  | cons op ops ih =>
      cases op with
      | take => exact ih r
      | feed bytes =>
          rw [withoutTaking_feed, after_cons, after_cons, perform, perform, fed, fed, feed_eq r bytes]
          -- what the chunk completes waits behind `r.complete` in one reader, and alone in
          -- the other
          obtain ⟨hafter, hfed⟩ := ih (prepend r.complete (feed ⟨r.phase, []⟩ bytes)).2
          obtain ⟨hafter', hfed'⟩ := ih (feed ⟨r.phase, []⟩ bytes).2
          rw [hafter, hfed, hafter', hfed']
          simp [prepend]

/-- **When payloads are taken makes no difference**: to how chunks are received, to
where the reader is in the stream, and to the payloads altogether, those taken away
and those that are left. -/
theorem drawing_in_between (r : FrameReader) (ops : List Op) :
    r.fed ops = r.fed (withoutTaking ops)
      ∧ (r.after ops).phase = (r.after (withoutTaking ops)).phase
      ∧ r.drawn ops ++ (r.after ops).complete = (r.after (withoutTaking ops)).complete := by
  induction ops generalizing r with
  | nil => exact ⟨rfl, rfl, rfl⟩
  | cons op ops ih =>
      cases op with
      | feed bytes =>
          obtain ⟨hfed, hphase, hcomplete⟩ := ih (r.feed bytes).2
          rw [withoutTaking_feed, fed, fed, hfed]
          exact ⟨rfl, hphase, hcomplete⟩
      | take =>
          obtain ⟨hfed, hphase, hcomplete⟩ := ih r.take.2
          rw [withoutTaking_take, fed, after_cons, perform, drawn, List.append_assoc, hfed,
            hphase, hcomplete, take_eq]
          -- with or without its oldest payload, a reader does the same with the chunks
          obtain ⟨hafter, hfed'⟩ := after_withoutTaking_eq r ops
          obtain ⟨hrest, hrest'⟩ := after_withoutTaking_eq ⟨r.phase, r.complete.drop 1⟩ ops
          rw [hafter, hfed', hrest, hrest']
          refine ⟨rfl, rfl, ?_⟩
          rw [← List.append_assoc, List.take_append_drop]

/-- The same of what is delivered, and of what is still going to be. -/
theorem taking_in_between (r : FrameReader) (ops : List Op) :
    r.fed ops = r.fed (withoutTaking ops)
      ∧ (r.after ops).phase = (r.after (withoutTaking ops)).phase
      ∧ r.delivered ops ++ (r.after ops).waiting = (r.after (withoutTaking ops)).waiting := by
  obtain ⟨hfed, hphase, hcomplete⟩ := drawing_in_between r ops
  refine ⟨hfed, hphase, ?_⟩
  rw [delivered_eq_drawn, waiting, waiting, ← hcomplete, List.map_append]

/-! ## §5. Chunks make no difference. -/

/-- **How a stream is cut, and when payloads are taken, makes no difference to a
reader in any state.**  A chunk does what its two parts do one after the other,
up to the first error.  Behind an invalid header every chunk is refused and
changes nothing, and the payloads that the bytes before it completed are
delivered in order.  Whatever is taken in between, the chunks are received
alike, and what is delivered then and later on is always the same. -/
theorem chunks_agree (r : FrameReader) (as bs : List UInt8) :
    ((r.feed (as ++ bs)).2 = ((r.feed as).2.feed bs).2
        ∧ ((r.feed (as ++ bs)).1 = .ok () ↔
            (r.feed as).1 = .ok () ∧ ((r.feed as).2.feed bs).1 = .ok ())
        ∧ ∀ e, (r.feed (as ++ bs)).1 = .error e ↔
            (r.feed as).1 = .error e
              ∨ (r.feed as).1 = .ok () ∧ ((r.feed as).2.feed bs).1 = .error e)
      ∧ (∀ header, (r.feed as).1 = .error (.invalidHeader header) →
          (∃ good b lost, as = good ++ b :: lost ∧ (r.feed good).1 = .ok ()
              ∧ (r.feed as).2.complete = (r.feed good).2.complete)
            ∧ ∀ ops : List Op,
              (∀ chunk, ((r.feed as).2.after ops).feed chunk
                = (.error .poisoned, (r.feed as).2.after ops))
              ∧ (r.feed as).2.delivered ops = (r.feed as).2.waiting.take (ops.count .take))
      ∧ ∀ ops : List Op,
          r.fed ops = r.fed (withoutTaking ops)
            ∧ (r.after ops).phase = (r.after (withoutTaking ops)).phase
            ∧ r.delivered ops ++ (r.after ops).waiting = (r.after (withoutTaking ops)).waiting
            ∧ ∀ n, (r.after ops).delivered (List.replicate n .take) = (r.after ops).waiting.take n := by
  refine ⟨feed_append_result r as bs, ?_, ?_⟩
  · intro header hfeed
    have hpoisoned := isPoisoned_of_feed hfeed
    refine ⟨feed_error_split hfeed, fun ops => ⟨?_, (delivered_of_idle (.inl hpoisoned)).1⟩⟩
    exact feed_of_isPoisoned (isPoisoned_after hpoisoned ops)
  · intro ops
    obtain ⟨hfed, hphase, hdelivered⟩ := taking_in_between r ops
    refine ⟨hfed, hphase, hdelivered, fun n => ?_⟩
    have htake : ∀ op ∈ List.replicate n Op.take, op = .take := fun _ => List.eq_of_mem_replicate
    rw [(delivered_of_idle (.inr htake)).1, List.count_replicate_self]

/-- A payload, and behind it a header that is no number and the bytes of another
frame. -/
theorem chunks_agree_bad_header :
    let as := Text.utf8 "000001azzzzzz"
    let bs := Text.utf8 "000001b"
    (new.feed as).1 = .error (.invalidHeader "zzzzzz")
      ∧ (new.feed (as ++ bs)).2 = ((new.feed as).2.feed bs).2
      ∧ (new.feed as).2.delivered [.feed bs, .take, .take] = [.ok "a"] := by
  intro as bs
  have hbad : (new.feed as).1 = .error (.invalidHeader "zzzzzz") := rfl
  have hagree := chunks_agree new as bs
  have hwaiting : (new.feed as).2.waiting.take 2 = [.ok "a"] := rfl
  exact ⟨hbad, hagree.1.1, ((hagree.2.1 _ hbad).2 _).2.trans hwaiting⟩

end LispLink.Wire.FrameReader
