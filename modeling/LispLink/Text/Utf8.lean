/-
  LispLink.Text.Utf8
  ────────────────────────────────
  **TEXT AS BYTES.**

  Strict decoding accepts exactly what encoding produces:

      ofUtf8? (utf8 s) = some s

  Lossy decoding never fails: each longest piece of the bytes that begins a
  character but does not finish it, and each byte that cannot begin one, is
  shown as one replacement character.
-/

namespace LispLink.Text

/-- The UTF-8 bytes of a text. -/
def utf8 (s : String) : List UInt8 := s.toUTF8.data.toList

/-- The text that the bytes encode, if they are UTF-8. -/
def ofUtf8? (bytes : List UInt8) : Option String := String.fromUTF8? ⟨bytes.toArray⟩

theorem ofUtf8?_utf8 (s : String) : ofUtf8? (utf8 s) = some s := by
  have h : (⟨(utf8 s).toArray⟩ : ByteArray) = s.toByteArray := by simp [utf8]
  rw [ofUtf8?, h, String.fromUTF8?, dif_pos s.isValidUTF8]
  rfl

/-- **Strict decoding accepts nothing else.** -/
theorem ofUtf8?_eq_some_iff {bytes : List UInt8} {text : String} :
    ofUtf8? bytes = some text ↔ bytes = utf8 text := by
  constructor
  · intro h
    rw [ofUtf8?, String.fromUTF8?] at h
    split at h
    · cases h
      rfl
    · cases h
  · rintro rfl
    exact ofUtf8?_utf8 text

theorem length_utf8 (s : String) : (utf8 s).length = s.utf8ByteSize := by
  simp only [utf8, Array.length_toList]
  rfl

/-! ## Lossy decoding. -/

/-- The character shown for bytes that are none. -/
def replacement : Char := Char.ofNat 0xfffd

/-- A character of which the first bytes have been read. -/
structure PartialChar where
  /-- The code point bits so far. -/
  bits : Nat
  /-- The number of bytes still missing, less one. -/
  more : Nat
  /-- The range in which the next byte has to lie. -/
  low : Nat
  high : Nat

/-- What the first byte of a character leads to: a whole character, a partial
one, or nothing. -/
def leadByte (b : Nat) : Option (Char ⊕ PartialChar) :=
  if b < 0x80 then some (.inl (Char.ofNat b))
  else if b < 0xc2 then none
  else if b < 0xe0 then some (.inr ⟨b - 0xc0, 0, 0x80, 0xbf⟩)
  else if b < 0xf0 then
    some (.inr ⟨b - 0xe0, 1, if b = 0xe0 then 0xa0 else 0x80, if b = 0xed then 0x9f else 0xbf⟩)
  else if b < 0xf5 then
    some (.inr ⟨b - 0xf0, 2, if b = 0xf0 then 0x90 else 0x80, if b = 0xf4 then 0x8f else 0xbf⟩)
  else none

/-- The characters found so far, last first, and the partial one. -/
structure LossyDecoding where
  found : List Char
  partial? : Option PartialChar

namespace LossyDecoding

/-- Read a byte that begins a character. -/
def begin (found : List Char) (b : Nat) : LossyDecoding :=
  match leadByte b with
  | none => ⟨replacement :: found, none⟩
  | some (.inl c) => ⟨c :: found, none⟩
  | some (.inr p) => ⟨found, some p⟩

/-- Read a byte. -/
def push (s : LossyDecoding) (byte : UInt8) : LossyDecoding :=
  let b := byte.toNat
  match s.partial? with
  | none => begin s.found b
  | some p =>
    if p.low ≤ b ∧ b ≤ p.high then
      let bits := p.bits * 64 + (b - 0x80)
      match p.more with
      | 0 => ⟨Char.ofNat bits :: s.found, none⟩
      | n + 1 => ⟨s.found, some ⟨bits, n, 0x80, 0xbf⟩⟩
    else begin (replacement :: s.found) b

/-- The characters at the end of the bytes. -/
def finish (s : LossyDecoding) : List Char :=
  (match s.partial? with
    | none => s.found
    | some _ => replacement :: s.found).reverse

end LossyDecoding

/-- The text that the bytes encode, with replacement characters for what is no
UTF-8. -/
def ofUtf8Lossy (bytes : List UInt8) : String :=
  String.ofList (bytes.foldl LossyDecoding.push ⟨[], none⟩).finish

end LispLink.Text
