/-
  LispLink.Proofs.Wire.RoundTrip
  ────────────────────────────────
  **FRAMES COME OUT AS THEY WENT IN.**

  A header is six hexadecimal digits, so it tells every length that a frame may
  have:

      headerValue? (the last w digits of n)  =  n mod 16 ^ w

  A reader at the start of a frame takes the header, then as many bytes as the
  header says, and is at the start of a frame again with one payload more.  So
  the payloads of any frames in a row come out in order, however the stream is
  cut.
-/
import Mathlib.Algebra.Group.Nat.Defs
import LispLink.Proofs.Wire.Chunks

namespace LispLink.Wire

/-! ## §1. Headers. -/

theorem utf8_append (s t : String) : Text.utf8 (s ++ t) = Text.utf8 s ++ Text.utf8 t := by
  show (s ++ t).toByteArray.data.toList = _
  rw [String.toByteArray_append, ByteArray.data_append, Array.toList_append]
  rfl

/-- A text of ASCII characters takes one byte for each. -/
theorem utf8_ofList {cs : List Char} (h : ∀ c ∈ cs, c.val ≤ 127) :
    Text.utf8 (String.ofList cs) = cs.map fun c => c.val.toUInt8 := by
  have hbytes : cs.flatMap String.utf8EncodeChar = cs.map fun c => c.val.toUInt8 := by
    induction cs with
    | nil => rfl
    | cons c cs ih =>
        have hc : c.utf8Size = 1 := Char.utf8Size_eq_one_iff.2 (h c List.mem_cons_self)
        rw [List.flatMap_cons, String.utf8EncodeChar_eq_singleton hc,
          ih fun d hd => h d (List.mem_cons_of_mem c hd)]
        rfl
  show (String.ofList cs).toByteArray.data.toList = _
  rw [String.toByteArray_ofList, List.utf8Encode, List.toList_data_toByteArray, hbytes]

/-- Every hexadecimal digit is an ASCII character, and reads back as its value. -/
theorem hexValue?_digitChar :
    ∀ d < 16, (Nat.digitChar d).val ≤ 127
      ∧ FrameReader.hexValue? (Nat.digitChar d).val.toUInt8 = some d := by decide

theorem length_hexDigits (width n : Nat) : (hexDigits width n).length = width := by
  induction width generalizing n with
  | zero => rfl
  | succ width ih => rw [hexDigits, List.length_append, ih, List.length_singleton]

theorem ascii_of_mem_hexDigits {width n : Nat} : ∀ c ∈ hexDigits width n, c.val ≤ 127 := by
  induction width generalizing n with
  | zero =>
      intro c hc
      cases hc
  | succ width ih =>
      intro c hc
      rcases List.mem_append.1 hc with hc | hc
      · exact ih c hc
      · rw [List.mem_singleton.1 hc]
        exact (hexValue?_digitChar (n % 16) (Nat.mod_lt n (by decide))).1

theorem headerValue?_concat (bytes : List UInt8) (b : UInt8) :
    FrameReader.headerValue? (bytes ++ [b])
      = (FrameReader.headerValue? bytes).bind fun n =>
          (FrameReader.hexValue? b).map (n * 16 + ·) := by
  unfold FrameReader.headerValue?
  rw [List.foldlM_append]
  simp only [List.foldlM_cons, List.foldlM_nil, bind_pure]
  rfl

/-- **The last digits of a number tell its remainder.** -/
theorem headerValue?_hexDigits (width n : Nat) :
    FrameReader.headerValue? ((hexDigits width n).map fun c => c.val.toUInt8)
      = some (n % 16 ^ width) := by
  induction width generalizing n with
  | zero =>
      rw [Nat.pow_zero, Nat.mod_one]
      rfl
  | succ width ih =>
      have hdigit := (hexValue?_digitChar (n % 16) (Nat.mod_lt n (by decide))).2
      have hvalue : n / 16 % 16 ^ width * 16 + n % 16 = n % 16 ^ (width + 1) := by
        rw [Nat.pow_succ', Nat.mod_mul]
        omega
      rw [hexDigits, List.map_append, List.map_singleton, headerValue?_concat, ih, hdigit, ← hvalue]
      rfl

/-- **A header of any length up to `maxPayload` reads back as that length.** -/
theorem headerValue?_header {n : Nat} (h : n ≤ maxPayload) :
    (Text.utf8 (header n)).length = headerLength
      ∧ FrameReader.headerValue? (Text.utf8 (header n)) = some n := by
  have hbytes : Text.utf8 (header n) = (hexDigits headerLength n).map fun c => c.val.toUInt8 :=
    utf8_ofList ascii_of_mem_hexDigits
  have hlt : n < 16 ^ headerLength := by
    unfold maxPayload at h
    unfold headerLength
    omega
  rw [hbytes, headerValue?_hexDigits, Nat.mod_eq_of_lt hlt, List.length_map, length_hexDigits]
  exact ⟨rfl, rfl⟩

/-! ## §2. One frame. -/

namespace FrameReader

/-- The bytes that complete a header. -/
theorem pushAll_header {bytes : List UInt8} (old : List (List UInt8)) {got : List UInt8}
    (hne : bytes ≠ []) (h : got.length + bytes.length = headerLength) :
    pushAll ⟨.inHeader got, old⟩ bytes = afterHeader old (got.reverse ++ bytes) := by
  induction bytes generalizing got with
  | nil => exact absurd rfl hne
  | cons b bytes ih =>
      rw [List.length_cons] at h
      cases bytes with
      | nil =>
          -- the last byte of the header: what comes is decided by its value
          have hpush : push ⟨.inHeader got, old⟩ b = afterHeader old (b :: got).reverse := by
            unfold push
            exact if_pos h
          rw [pushAll_cons, hpush, List.reverse_cons]
          cases afterHeader old (got.reverse ++ [b]) with
          | mk result r => cases result <;> rfl
      | cons b' rest =>
          have hshort : got.length + 1 ≠ headerLength := by
            rw [List.length_cons] at h
            omega
          have hpush : push ⟨.inHeader got, old⟩ b = (.ok (), ⟨.inHeader (b :: got), old⟩) := by
            unfold push
            exact if_neg hshort
          rw [pushAll_cons, hpush]
          show pushAll ⟨.inHeader (b :: got), old⟩ (b' :: rest) = _
          rw [ih (List.cons_ne_nil _ _) (by rw [← h, List.length_cons]; omega)]
          simp

/-- The bytes that complete a payload. -/
theorem pushAll_payload {bytes : List UInt8} (old : List (List UInt8)) {got : List UInt8}
    {missing : Nat} (hpos : 0 < missing) (h : bytes.length = missing) :
    pushAll ⟨.inPayload got missing, old⟩ bytes
      = (.ok (), ⟨.inHeader [], old ++ [got.reverse ++ bytes]⟩) := by
  induction bytes generalizing got missing with
  | nil =>
      rw [List.length_nil] at h
      omega
  | cons b bytes ih =>
      rw [List.length_cons] at h
      rw [pushAll_cons, push]
      dsimp only
      by_cases hlast : missing ≤ 1
      · have hnil : bytes = [] := List.eq_nil_of_length_eq_zero (by omega)
        subst hnil
        rw [if_pos hlast]
        simp
      · rw [if_neg hlast]
        show pushAll ⟨.inPayload (b :: got) (missing - 1), old⟩ bytes = _
        rw [ih (by omega) (by omega)]
        simp

/-- A whole header at the start of a frame. -/
theorem pushAll_wholeHeader {header : List UInt8} (old : List (List UInt8))
    (h : header.length = headerLength) :
    pushAll ⟨.inHeader [], old⟩ header = afterHeader old header := by
  have hne : header ≠ [] := List.ne_nil_of_length_pos (by rw [h]; decide)
  exact pushAll_header old hne ((Nat.zero_add _).trans h)

/-- The bytes of a header that announces a payload of `n` bytes. -/
structure Announces (header : List UInt8) (n : Nat) : Prop where
  length : header.length = headerLength
  value : headerValue? header = some n

/-- **A reader at the start of a frame takes its payload in and is at the start of
the next.** -/
theorem pushAll_announced {header payload : List UInt8} (h : Announces header payload.length)
    (old : List (List UInt8)) :
    pushAll ⟨.inHeader [], old⟩ (header ++ payload)
      = (.ok (), ⟨.inHeader [], old ++ [payload]⟩) := by
  rw [pushAll_append, pushAll_wholeHeader old h.length, afterHeader, h.value]
  cases payload with
  | nil => rfl
  | cons b rest => exact pushAll_payload old (Nat.succ_pos _) rfl

end FrameReader

theorem frame_eq_error_iff (payload : String) (e : EncodeError) :
    frame payload = .error e ↔
      maxPayload < payload.utf8ByteSize ∧ e = .payloadTooLarge payload.utf8ByteSize := by
  unfold frame
  split
  · next hlong => simp [hlong, eq_comm]
  · next hshort => simp [hshort]

/-- What a frame is made of. -/
theorem frame_eq_ok {payload framed : String} (h : frame payload = .ok framed) :
    payload.utf8ByteSize ≤ maxPayload ∧ framed = header payload.utf8ByteSize ++ payload := by
  unfold frame at h
  split at h
  · cases h
  · next hshort =>
      cases h
      exact ⟨Nat.le_of_not_lt hshort, rfl⟩

/-- A frame without its header. -/
def behindHeader (framed : String) : String := String.ofList (framed.toList.drop headerLength)

theorem behindHeader_framed {payload framed : String} (h : frame payload = .ok framed) :
    behindHeader framed = payload := by
  obtain ⟨_, rfl⟩ := frame_eq_ok h
  have hheader : (header payload.utf8ByteSize).toList.length = headerLength := by
    rw [header, String.toList_ofList, length_hexDigits]
  rw [behindHeader, String.toList_append, ← hheader, List.drop_left, String.ofList_toList]

/-- The same of the frame of a text. -/
theorem pushAll_framed {payload framed : String} (h : frame payload = .ok framed)
    (old : List (List UInt8)) :
    FrameReader.pushAll ⟨.inHeader [], old⟩ (Text.utf8 framed)
      = (.ok (), ⟨.inHeader [], old ++ [Text.utf8 payload]⟩) := by
  obtain ⟨hsize, rfl⟩ := frame_eq_ok h
  obtain ⟨hlength, hvalue⟩ := headerValue?_header hsize
  rw [utf8_append]
  refine FrameReader.pushAll_announced ⟨hlength, ?_⟩ old
  rw [Text.length_utf8, hvalue]

/-! ## §3. Frames in a row. -/

theorem pushAll_frames {payloads framed : List String}
    (h : payloads.map frame = framed.map .ok) (old : List (List UInt8)) :
    FrameReader.pushAll ⟨.inHeader [], old⟩ (framed.flatMap Text.utf8)
      = (.ok (), ⟨.inHeader [], old ++ payloads.map Text.utf8⟩) := by
  induction payloads generalizing framed old with
  | nil =>
      obtain rfl := List.map_eq_nil_iff.1 h.symm
      simp
  | cons p ps ih =>
      cases framed with
      | nil => cases h
      | cons f fs =>
          rw [List.map_cons, List.map_cons] at h
          obtain ⟨hf, hfs⟩ := List.cons.inj h
          rw [List.flatMap_cons, FrameReader.pushAll_append, pushAll_framed hf]
          dsimp only
          rw [ih hfs, List.map_cons, List.append_assoc]
          rfl

/-- Payloads that are text are taken in order, and then there is none. -/
theorem taken_payloads (phase : Phase) (payloads : List String) (n : Nat) :
    FrameReader.taken ⟨phase, payloads.map Text.utf8⟩ (List.replicate (payloads.length + n) .take)
      = payloads.map (fun p => .ok (some p)) ++ List.replicate n (.ok none) := by
  induction payloads with
  | nil =>
      rw [List.length_nil, Nat.zero_add]
      induction n with
      | zero => rfl
      | succ n ih =>
          rw [List.replicate_succ, FrameReader.taken]
          exact congrArg _ ih
  | cons p ps ih =>
      have htake : FrameReader.take ⟨phase, (p :: ps).map Text.utf8⟩
          = (.ok (some p), ⟨phase, ps.map Text.utf8⟩) := by
        simp only [FrameReader.take, List.map_cons, Text.ofUtf8?_utf8]
      rw [List.length_cons, Nat.succ_add, List.replicate_succ, FrameReader.taken, htake]
      exact congrArg _ ih

/-- **Frames come out as they went in.**  A payload has a frame unless it is longer
than a header can tell, and that is the only error.  Frames in a row, cut into
chunks anywhere, are all received well; taking returns their payloads in order
and then nothing, and nothing is left of a frame in progress. -/
theorem taken_framed :
    (∀ (payload : String) (e : EncodeError), frame payload = .error e ↔
        0xffffff < payload.utf8ByteSize ∧ e = .payloadTooLarge payload.utf8ByteSize)
      ∧ ∀ (payloads framed : List String) (chunks : List (List UInt8)),
          payloads.map frame = framed.map .ok → chunks.flatten = framed.flatMap Text.utf8 →
          (∀ result ∈ FrameReader.new.fed (chunks.map .feed), result = .ok ())
            ∧ ∀ n,
              let takings := List.replicate (payloads.length + n) FrameReader.Op.take
              (FrameReader.new.after (chunks.map .feed)).taken takings
                  = payloads.map (fun p => .ok (some p)) ++ List.replicate n (.ok none)
                ∧ ((FrameReader.new.after (chunks.map .feed)).after takings).pending = 0 := by
  refine ⟨frame_eq_error_iff, ?_⟩
  intro payloads framed chunks hframed hchunks
  have hfeed : FrameReader.new.feed chunks.flatten
      = (.ok (), ⟨.inHeader [], payloads.map Text.utf8⟩) := by
    rw [hchunks, FrameReader.feed_eq_pushAll rfl]
    exact pushAll_frames hframed []
  obtain ⟨hfed, hafter⟩ := FrameReader.fed_chunks hfeed
  refine ⟨hfed, ?_⟩
  intro n takings
  have htakings : ∀ op ∈ takings, op = .take := fun _ => List.eq_of_mem_replicate
  rw [hafter, taken_payloads, (FrameReader.delivered_of_idle (.inr htakings)).2]
  exact ⟨rfl, rfl⟩

/-- An empty payload, and one with a character of two bytes that is cut in two. -/
theorem taken_framed_cut_character :
    let payloads := ["", "é"]
    let framed := ["000000", "000002é"]
    let chunks : List (List UInt8) := [[48, 48, 48, 48], [48, 48, 48, 48, 48, 48, 48, 50, 195], [169]]
    payloads.map frame = framed.map .ok ∧ chunks.flatten = framed.flatMap Text.utf8
      ∧ (FrameReader.new.after (chunks.map .feed)).taken [.take, .take, .take]
          = [.ok (some ""), .ok (some "é"), .ok none] := by
  intro payloads framed chunks
  have hframed : payloads.map frame = framed.map .ok := rfl
  have hchunks : chunks.flatten = framed.flatMap Text.utf8 := by decide
  exact ⟨hframed, hchunks, ((taken_framed.2 payloads framed chunks hframed hchunks).2 1).1⟩

end LispLink.Wire
