/-
  LispLink.Proofs.Json.Grammar
  ────────────────────────────────
  **WHAT STRICT JSON IS.**

  A grammar says which characters spell a value.  It knows nothing of reading: parts
  stand behind each other, with blanks where blanks may be.  The reader accepts the
  spelled texts, and no others:

      parse? text = some j  ↔  IsJson text j

  One half goes along the reader's recursion, the other along the grammar.  For the
  latter a number has to end where the reader would end it, so what stands behind a
  value must not go on with a number (`StopsNumber`).
-/
import LispLink.Json.Reading
import Mathlib.Data.List.DropRight

namespace LispLink.JsonText

/-! ## §1. The grammar. -/

def AreBlanks (cs : List Char) : Prop := ∀ c ∈ cs, c ∈ [' ', '\n', '\r', '\t']

/-- One or more decimal digits. -/
structure AreDigits (ds : List Char) : Prop where
  nonempty : ds ≠ []
  digits : ∀ d ∈ ds, d.isDigit = true

/-- The integer part of a number starts with no zero, unless it is one. -/
inductive IsWhole : List Char → Prop where
  | zero : IsWhole ['0']
  | digits {ds : List Char} (h : AreDigits ds) (hzero : ds.head? ≠ some '0') : IsWhole ds

inductive IsFraction : List Char → Prop where
  | absent : IsFraction []
  | point {ds : List Char} (h : AreDigits ds) : IsFraction ('.' :: ds)

inductive IsExponent : List Char → Prop where
  | absent : IsExponent []
  | mark {c : Char} {ds : List Char} (sign : List Char) (hc : c = 'e' ∨ c = 'E')
      (hsign : sign = [] ∨ sign = ['+'] ∨ sign = ['-']) (h : AreDigits ds) :
      IsExponent (c :: (sign ++ ds))

/-- How numbers are spelled. -/
inductive IsNumber : List Char → Prop where
  | intro {sign whole fraction exponent : List Char} (hsign : sign = [] ∨ sign = ['-'])
      (hwhole : IsWhole whole) (hfraction : IsFraction fraction)
      (hexponent : IsExponent exponent) :
      IsNumber (sign ++ (whole ++ (fraction ++ exponent)))

/-- A letter behind a backslash, and the character that it stands for. -/
def IsEscape (e c : Char) : Prop :=
  (e, c) ∈ [('"', '"'), ('\\', '\\'), ('/', '/'), ('b', '\x08'), ('f', '\x0c'), ('n', '\n'),
    ('r', '\r'), ('t', '\t')]

/-- The hexadecimal digits, each in the place of its value. -/
def smallHex : List Char :=
  ['0', '1', '2', '3', '4', '5', '6', '7', '8', '9', 'a', 'b', 'c', 'd', 'e', 'f']

def capitalHex : List Char :=
  ['0', '1', '2', '3', '4', '5', '6', '7', '8', '9', 'A', 'B', 'C', 'D', 'E', 'F']

/-- A hexadecimal digit, small or capital, and its value. -/
def IsHex (c : Char) (n : Nat) : Prop := smallHex[n]? = some c ∨ capitalHex[n]? = some c

/-- Four hexadecimal digits and their value. -/
inductive IsHex4 : Char → Char → Char → Char → Nat → Prop where
  | intro {h₁ h₂ h₃ h₄ : Char} {n₁ n₂ n₃ n₄ : Nat} (hn₁ : IsHex h₁ n₁) (hn₂ : IsHex h₂ n₂)
      (hn₃ : IsHex h₃ n₃) (hn₄ : IsHex h₄ n₄) :
      IsHex4 h₁ h₂ h₃ h₄ (((n₁ * 16 + n₂) * 16 + n₃) * 16 + n₄)

/-- What may stand between the quotes of a string. -/
inductive IsBody : List Char → Prop where
  | nil : IsBody []
  | plain {c : Char} {cs : List Char} (hcontrol : 0x20 ≤ c.toNat) (hquote : c ≠ '"')
      (hbackslash : c ≠ '\\') (h : IsBody cs) : IsBody (c :: cs)
  | simple {e c : Char} {cs : List Char} (he : IsEscape e c) (h : IsBody cs) :
      IsBody ('\\' :: e :: cs)
  | unicode {h₁ h₂ h₃ h₄ : Char} {n : Nat} {cs : List Char} (hcode : IsHex4 h₁ h₂ h₃ h₄ n)
      (h : IsBody cs) : IsBody ('\\' :: 'u' :: h₁ :: h₂ :: h₃ :: h₄ :: cs)

/-- What is spelled by some characters: a value, the items of an array, or the members
of an object.  Of the latter two there is at least one. -/
inductive Part where
  | value (j : JsonText)
  | items (js : List JsonText)
  | members (ms : List (List Char × JsonText))

/-- **How a part is spelled.**  Blanks may stand around every item and around the name
and the value of every member. -/
inductive Spells : Part → List Char → Prop where
  | word {w : String} (hw : w ∈ ["null", "true", "false"]) : Spells (.value (.word w)) w.toList
  | number {ds : List Char} (h : IsNumber ds) : Spells (.value (.number ds)) ds
  | string {body : List Char} (h : IsBody body) :
      Spells (.value (.string body)) ('"' :: (body ++ ['"']))
  | noItems {gap : List Char} (hgap : AreBlanks gap) :
      Spells (.value (.array [])) ('[' :: (gap ++ [']']))
  | array {js : List JsonText} {cs : List Char} (h : Spells (.items js) cs) :
      Spells (.value (.array js)) ('[' :: (cs ++ [']']))
  | noMembers {gap : List Char} (hgap : AreBlanks gap) :
      Spells (.value (.object [])) ('\x7b' :: (gap ++ ['\x7d']))
  | object {ms : List (List Char × JsonText)} {cs : List Char} (h : Spells (.members ms) cs) :
      Spells (.value (.object ms)) ('\x7b' :: (cs ++ ['\x7d']))
  | item {j : JsonText} {before cs after : List Char} (hbefore : AreBlanks before)
      (h : Spells (.value j) cs) (hafter : AreBlanks after) :
      Spells (.items [j]) (before ++ (cs ++ after))
  | itemThen {j : JsonText} {js : List JsonText} {before cs after rest : List Char}
      (hbefore : AreBlanks before) (h : Spells (.value j) cs) (hafter : AreBlanks after)
      (hrest : Spells (.items js) rest) :
      Spells (.items (j :: js)) (before ++ (cs ++ (after ++ ',' :: rest)))
  | member {key : List Char} {j : JsonText} {before gap gap' cs after : List Char}
      (hbefore : AreBlanks before) (hkey : IsBody key) (hgap : AreBlanks gap)
      (hgap' : AreBlanks gap') (h : Spells (.value j) cs) (hafter : AreBlanks after) :
      Spells (.members [(key, j)])
        (before ++ '"' :: (key ++ '"' :: (gap ++ ':' :: (gap' ++ (cs ++ after)))))
  | memberThen {key : List Char} {j : JsonText} {ms : List (List Char × JsonText)}
      {before gap gap' cs after rest : List Char}
      (hbefore : AreBlanks before) (hkey : IsBody key) (hgap : AreBlanks gap)
      (hgap' : AreBlanks gap') (h : Spells (.value j) cs) (hafter : AreBlanks after)
      (hrest : Spells (.members ms) rest) :
      Spells (.members ((key, j) :: ms))
        (before ++ '"' :: (key ++ '"' :: (gap ++ ':' :: (gap' ++ (cs ++ (after ++ ',' :: rest))))))

/-- Whether a text is strict JSON with the value `j`. -/
def IsJson (text : String) (j : JsonText) : Prop :=
  ∃ before cs after, AreBlanks before ∧ Spells (.value j) cs ∧ AreBlanks after
    ∧ text.toList = before ++ (cs ++ after)

/-! ## §2. Blanks and digits. -/

theorem isBlank_iff {c : Char} : isBlank c = true ↔ c ∈ [' ', '\n', '\r', '\t'] := by
  simp only [isBlank, Bool.or_eq_true, beq_iff_eq, List.mem_cons, List.not_mem_nil, or_false,
    or_assoc]

theorem areBlanks_append {cs ds : List Char} (hcs : AreBlanks cs) (hds : AreBlanks ds) :
    AreBlanks (cs ++ ds) := by
  intro c hc
  exact (List.mem_append.1 hc).elim (hcs c) (hds c)

/-- What is skipped are blanks. -/
theorem exists_blanks (cs : List Char) : ∃ gap, AreBlanks gap ∧ cs = gap ++ skipBlanks cs :=
  ⟨cs.takeWhile isBlank, fun _ hc => isBlank_iff.1 (List.mem_takeWhile_imp hc),
    List.takeWhile_append_dropWhile.symm⟩

theorem skipBlanks_gap {gap : List Char} (hgap : AreBlanks gap) (cs : List Char) :
    skipBlanks (gap ++ cs) = skipBlanks cs :=
  List.dropWhile_append_of_pos fun d hd => isBlank_iff.2 (hgap d hd)

/-- Blanks are skipped up to what is none. -/
theorem skipBlanks_append {gap : List Char} {c : Char} (hgap : AreBlanks gap)
    (hc : isBlank c = false) (cs : List Char) : skipBlanks (gap ++ c :: cs) = c :: cs := by
  rw [skipBlanks_gap hgap]
  exact List.dropWhile_cons_of_neg (by simp [hc])

theorem skipBlanks_of_areBlanks {gap : List Char} (hgap : AreBlanks gap) :
    skipBlanks gap = [] :=
  List.dropWhile_eq_nil_iff.2 fun c hc => isBlank_iff.2 (hgap c hc)

/-- Whether characters do not go on with digits. -/
def StopsDigits (rest : List Char) : Prop := ∀ c, rest.head? = some c → c.isDigit = false

/-- What is read as digits are digits. -/
theorem areDigits_of_digits1 {cs ds rest : List Char} (h : digits1 cs = some (ds, rest)) :
    AreDigits ds ∧ cs = ds ++ rest := by
  unfold digits1 at h
  split at h
  · cases h
  · next hne =>
      cases h
      exact ⟨⟨hne, fun d hd => List.mem_takeWhile_imp hd⟩,
        List.takeWhile_append_dropWhile.symm⟩

/-- Digits are read up to the first character that is none. -/
theorem digits1_append {ds rest : List Char} (h : AreDigits ds) (hstop : StopsDigits rest) :
    digits1 (ds ++ rest) = some (ds, rest) := by
  have hrest : rest.takeWhile Char.isDigit = [] ∧ rest.dropWhile Char.isDigit = rest := by
    cases rest with
    | nil => exact ⟨rfl, rfl⟩
    | cons c rest => simp [hstop c rfl]
  have htake : (ds ++ rest).takeWhile Char.isDigit = ds := by
    rw [List.takeWhile_append_of_pos h.digits, hrest.1, List.append_nil]
  have hdrop : (ds ++ rest).dropWhile Char.isDigit = rest := by
    rw [List.dropWhile_append_of_pos h.digits, hrest.2]
  unfold digits1
  rw [htake, hdrop]
  split
  · exact absurd rfl h.nonempty
  · rfl

/-! ## §3. Numbers. -/

theorem isWhole_of_wholePart {cs ds rest : List Char} (h : wholePart cs = some (ds, rest)) :
    IsWhole ds ∧ cs = ds ++ rest := by
  unfold wholePart at h
  split at h
  · cases h
    exact ⟨.zero, rfl⟩
  · next hzero =>
      obtain ⟨hds, rfl⟩ := areDigits_of_digits1 h
      refine ⟨.digits hds fun hhead => ?_, rfl⟩
      obtain ⟨ds', rfl⟩ := List.head?_eq_some_iff.1 hhead
      exact hzero _ rfl

theorem wholePart_append {ds rest : List Char} (h : IsWhole ds) (hstop : StopsDigits rest) :
    wholePart (ds ++ rest) = some (ds, rest) := by
  cases h with
  | zero => rfl
  | digits hds hzero =>
      unfold wholePart
      split
      · next heq =>
          cases ds with
          | nil => exact absurd rfl hds.nonempty
          | cons d ds =>
              cases heq
              exact absurd rfl hzero
      · exact digits1_append hds hstop

theorem isFraction_of_fractionPart {cs ds rest : List Char}
    (h : fractionPart cs = some (ds, rest)) : IsFraction ds ∧ cs = ds ++ rest := by
  unfold fractionPart at h
  split at h
  · obtain ⟨⟨ds', rest'⟩, hdigits, heq⟩ := Option.map_eq_some_iff.1 h
    obtain ⟨hds, rfl⟩ := areDigits_of_digits1 hdigits
    cases heq
    exact ⟨.point hds, rfl⟩
  · cases h
    exact ⟨.absent, rfl⟩

theorem fractionPart_append {ds rest : List Char} (h : IsFraction ds) (hstop : StopsDigits rest)
    (hpoint : rest.head? ≠ some '.') : fractionPart (ds ++ rest) = some (ds, rest) := by
  cases h with
  | absent =>
      unfold fractionPart
      split
      · next heq =>
          have heq : rest = _ := heq
          exact absurd (by rw [heq]; rfl) hpoint
      · rfl
  | @point ds hds =>
      show (digits1 (ds ++ rest)).map _ = _
      rw [digits1_append hds hstop]
      rfl

theorem isExponent_of_exponentPart {cs ds rest : List Char}
    (h : exponentPart cs = some (ds, rest)) : IsExponent ds ∧ cs = ds ++ rest := by
  unfold exponentPart at h
  split at h
  · cases h
    exact ⟨.absent, rfl⟩
  · split at h
    · next hc =>
        split at h
        all_goals
          obtain ⟨⟨ds', rest'⟩, hdigits, heq⟩ := Option.map_eq_some_iff.1 h
          obtain ⟨hds, rfl⟩ := areDigits_of_digits1 hdigits
          cases heq
        · exact ⟨.mark ['+'] hc (.inr (.inl rfl)) hds, rfl⟩
        · exact ⟨.mark ['-'] hc (.inr (.inr rfl)) hds, rfl⟩
        · exact ⟨.mark [] hc (.inl rfl) hds, rfl⟩
    · cases h
      exact ⟨.absent, rfl⟩

theorem exponentPart_append {ds rest : List Char} (h : IsExponent ds) (hstop : StopsDigits rest)
    (hmark : ∀ c, rest.head? = some c → c ≠ 'e' ∧ c ≠ 'E') :
    exponentPart (ds ++ rest) = some (ds, rest) := by
  cases h with
  | absent =>
      cases rest with
      | nil => rfl
      | cons c rest =>
          obtain ⟨he, hE⟩ := hmark c rfl
          exact if_neg (by simp [he, hE])
  | @mark c ds sign hc hsign hds =>
      have hdigits := digits1_append hds hstop
      rcases hsign with rfl | rfl | rfl
      · -- the digits do not start with a sign
        cases ds with
        | nil => exact absurd rfl hds.nonempty
        | cons d ds =>
            have hd := hds.digits d List.mem_cons_self
            show exponentPart (c :: d :: (ds ++ rest)) = _
            unfold exponentPart
            dsimp only
            rw [if_pos hc]
            split
            · next heq =>
                cases heq
                cases hd
            · next heq =>
                cases heq
                cases hd
            · show (digits1 (d :: ds ++ rest)).map _ = _
              rw [hdigits]
              rfl
      all_goals
        unfold exponentPart
        show (if c = 'e' ∨ c = 'E' then (digits1 (ds ++ rest)).map _ else _) = _
        rw [if_pos hc, hdigits]
        rfl

/-- Read a number behind its sign. -/
def behindSign (sign cs : List Char) : Option (List Char × List Char) := do
  let (whole, cs) ← wholePart cs
  let (fraction, cs) ← fractionPart cs
  let (exponent, cs) ← exponentPart cs
  pure (sign ++ whole ++ fraction ++ exponent, cs)

theorem numberChars_minus (cs : List Char) : numberChars ('-' :: cs) = behindSign ['-'] cs := rfl

theorem numberChars_of_ne_minus {cs : List Char} (h : cs.head? ≠ some '-') :
    numberChars cs = behindSign [] cs := by
  unfold numberChars
  split
  next sign cs' heq =>
    split at heq
    · exact absurd rfl h
    · cases heq
      rfl

theorem eq_of_behindSign {sign cs ds rest : List Char}
    (h : behindSign sign cs = some (ds, rest)) :
    ∃ whole fraction exponent, IsWhole whole ∧ IsFraction fraction ∧ IsExponent exponent
      ∧ ds = sign ++ (whole ++ (fraction ++ exponent))
      ∧ sign ++ cs = ds ++ rest := by
  obtain ⟨⟨whole, cs₁⟩, hwhole, h₁⟩ := Option.bind_eq_some_iff.1 h
  obtain ⟨⟨fraction, cs₂⟩, hfraction, h₂⟩ := Option.bind_eq_some_iff.1 h₁
  obtain ⟨⟨exponent, cs₃⟩, hexponent, h₃⟩ := Option.bind_eq_some_iff.1 h₂
  obtain ⟨hwhole', rfl⟩ := isWhole_of_wholePart hwhole
  obtain ⟨hfraction', rfl⟩ := isFraction_of_fractionPart hfraction
  obtain ⟨hexponent', rfl⟩ := isExponent_of_exponentPart hexponent
  cases h₃
  exact ⟨whole, fraction, exponent, hwhole', hfraction', hexponent',
    by simp only [List.append_assoc], by simp only [List.append_assoc]⟩

/-- What is read as a number is one. -/
theorem isNumber_of_numberChars {cs ds rest : List Char}
    (h : numberChars cs = some (ds, rest)) : IsNumber ds ∧ cs = ds ++ rest := by
  by_cases hminus : cs.head? = some '-'
  · obtain ⟨cs, rfl⟩ := List.head?_eq_some_iff.1 hminus
    rw [numberChars_minus] at h
    obtain ⟨whole, fraction, exponent, hwhole, hfraction, hexponent, rfl, heq⟩ :=
      eq_of_behindSign h
    exact ⟨.intro (.inr rfl) hwhole hfraction hexponent, heq⟩
  · rw [numberChars_of_ne_minus hminus] at h
    obtain ⟨whole, fraction, exponent, hwhole, hfraction, hexponent, rfl, heq⟩ :=
      eq_of_behindSign h
    exact ⟨.intro (.inl rfl) hwhole hfraction hexponent, heq⟩

/-- Whether characters do not go on with a number. -/
def StopsNumber (rest : List Char) : Prop :=
  ∀ c, rest.head? = some c → c.isDigit = false ∧ c ≠ '.' ∧ c ≠ 'e' ∧ c ≠ 'E'

theorem StopsNumber.stopsDigits {rest : List Char} (h : StopsNumber rest) : StopsDigits rest :=
  fun c hc => (h c hc).1

/-- Neither a fraction nor an exponent goes on with the digits before it. -/
theorem IsFraction.stopsDigits {ds rest : List Char} (h : IsFraction ds)
    (hstop : StopsDigits rest) : StopsDigits (ds ++ rest) := by
  cases h with
  | absent => exact hstop
  | point =>
      rintro c ⟨⟩
      rfl

theorem IsExponent.stopsDigits {ds rest : List Char} (h : IsExponent ds)
    (hstop : StopsDigits rest) : StopsDigits (ds ++ rest) := by
  cases h with
  | absent => exact hstop
  | mark sign hc =>
      rintro c ⟨⟩
      rcases hc with rfl | rfl <;> rfl

theorem IsExponent.head?_ne_point {ds rest : List Char} (h : IsExponent ds)
    (hstop : StopsNumber rest) : (ds ++ rest).head? ≠ some '.' := by
  cases h with
  | absent => exact fun hpoint => (hstop _ hpoint).2.1 rfl
  | mark sign hc => rcases hc with rfl | rfl <;> exact fun hpoint => nomatch hpoint

theorem IsWhole.head?_ne_minus {ds rest : List Char} (h : IsWhole ds) :
    (ds ++ rest).head? ≠ some '-' := by
  cases h with
  | zero => exact fun hminus => nomatch hminus
  | digits hds =>
      cases ds with
      | nil => exact absurd rfl hds.nonempty
      | cons d ds =>
          rintro ⟨⟩
          cases hds.digits _ List.mem_cons_self

/-- A number is read up to where it stops. -/
theorem numberChars_append {ds rest : List Char} (h : IsNumber ds) (hstop : StopsNumber rest) :
    numberChars (ds ++ rest) = some (ds, rest) := by
  obtain @⟨sign, whole, fraction, exponent, hsign, hwhole, hfraction, hexponent⟩ := h
  have hbehind : behindSign sign (whole ++ (fraction ++ (exponent ++ rest)))
      = some (sign ++ (whole ++ (fraction ++ exponent)), rest) := by
    have hexponent' := exponentPart_append hexponent hstop.stopsDigits
      fun c hc => (hstop c hc).2.2
    have hfraction' := fractionPart_append hfraction (hexponent.stopsDigits hstop.stopsDigits)
      (hexponent.head?_ne_point hstop)
    have hwhole' := wholePart_append hwhole
      (hfraction.stopsDigits (hexponent.stopsDigits hstop.stopsDigits))
    simp [behindSign, hwhole', hfraction', hexponent']
  simp only [List.append_assoc]
  rcases hsign with rfl | rfl
  · rw [List.nil_append, numberChars_of_ne_minus hwhole.head?_ne_minus]
    exact hbehind
  · exact hbehind

/-! ## §4. Strings. -/

theorem isEscape_iff {e c : Char} : IsEscape e c ↔ e ∈ simpleEscapes ∧ simpleEscape e = c := by
  constructor
  · intro h
    simp only [IsEscape, List.mem_cons, List.not_mem_nil, or_false, Prod.mk.injEq] at h
    rcases h with ⟨rfl, rfl⟩ | ⟨rfl, rfl⟩ | ⟨rfl, rfl⟩ | ⟨rfl, rfl⟩ | ⟨rfl, rfl⟩ | ⟨rfl, rfl⟩
      | ⟨rfl, rfl⟩ | ⟨rfl, rfl⟩ <;> decide
  · rintro ⟨he, rfl⟩
    simp only [simpleEscapes, List.mem_cons, List.not_mem_nil, or_false] at he
    unfold IsEscape
    rcases he with rfl | rfl | rfl | rfl | rfl | rfl | rfl | rfl <;> decide

/-- The letter of an escaped code is that of no other escape. -/
theorem IsEscape.ne_u {e c : Char} (h : IsEscape e c) : e ≠ 'u' := by
  rintro rfl
  exact absurd (isEscape_iff.1 h).1 (by decide)

theorem IsHex.lt {c : Char} {n : Nat} (h : IsHex c n) : n < 16 :=
  h.elim (fun h => (List.getElem?_eq_some_iff.1 h).1) fun h => (List.getElem?_eq_some_iff.1 h).1

theorem isHex_iff {c : Char} {n : Nat} : IsHex c n ↔ isHexDigit c = true ∧ hexValue c = n := by
  constructor
  · intro h
    have hsmall : ∀ n : Fin 16, isHexDigit (smallHex.get n) = true
        ∧ hexValue (smallHex.get n) = n := by decide
    have hcapital : ∀ n : Fin 16, isHexDigit (capitalHex.get n) = true
        ∧ hexValue (capitalHex.get n) = n := by decide
    rcases h with h | h
    · obtain ⟨hlt, rfl⟩ := List.getElem?_eq_some_iff.1 h
      exact hsmall ⟨n, hlt⟩
    · obtain ⟨hlt, rfl⟩ := List.getElem?_eq_some_iff.1 h
      exact hcapital ⟨n, hlt⟩
  · rintro ⟨hc, rfl⟩
    have hlt : c.toNat < 128 := by
      simp only [isHexDigit, Char.isDigit, Bool.or_eq_true, Bool.and_eq_true, decide_eq_true_iff,
        Char.le_def, UInt32.le_iff_toNat_le] at hc
      rcases hc with (⟨_, hc⟩ | ⟨_, hc⟩) | ⟨_, hc⟩ <;> exact Nat.lt_of_le_of_lt hc (by decide)
    have hascii : ∀ n < 128, isHexDigit (Char.ofNat n) = true →
        smallHex[hexValue (Char.ofNat n)]? = some (Char.ofNat n)
          ∨ capitalHex[hexValue (Char.ofNat n)]? = some (Char.ofNat n) := by decide
    have h := hascii c.toNat hlt
    rw [Char.ofNat_toNat] at h
    exact h hc

theorem isHex4_iff {h₁ h₂ h₃ h₄ : Char} {n : Nat} :
    IsHex4 h₁ h₂ h₃ h₄ n ↔ (isHexDigit h₁ && isHexDigit h₂ && isHexDigit h₃ && isHexDigit h₄) = true
      ∧ hex4 h₁ h₂ h₃ h₄ = n := by
  simp only [Bool.and_eq_true]
  constructor
  · rintro ⟨hn₁, hn₂, hn₃, hn₄⟩
    obtain ⟨hd₁, rfl⟩ := isHex_iff.1 hn₁
    obtain ⟨hd₂, rfl⟩ := isHex_iff.1 hn₂
    obtain ⟨hd₃, rfl⟩ := isHex_iff.1 hn₃
    obtain ⟨hd₄, rfl⟩ := isHex_iff.1 hn₄
    exact ⟨⟨⟨⟨hd₁, hd₂⟩, hd₃⟩, hd₄⟩, rfl⟩
  · rintro ⟨⟨⟨⟨hd₁, hd₂⟩, hd₃⟩, hd₄⟩, rfl⟩
    exact .intro (isHex_iff.2 ⟨hd₁, rfl⟩) (isHex_iff.2 ⟨hd₂, rfl⟩) (isHex_iff.2 ⟨hd₃, rfl⟩)
      (isHex_iff.2 ⟨hd₄, rfl⟩)

theorem IsHex4.lt {h₁ h₂ h₃ h₄ : Char} {n : Nat} (h : IsHex4 h₁ h₂ h₃ h₄ n) : n < 0x10000 := by
  obtain ⟨hn₁, hn₂, hn₃, hn₄⟩ := h
  have h1 := hn₁.lt
  have h2 := hn₂.lt
  have h3 := hn₃.lt
  have h4 := hn₄.lt
  omega

/-- What is read up to a closing quote may stand between quotes. -/
theorem isBody_of_stringBody {acc cs body rest : List Char}
    (h : stringBody acc cs = some (body, rest)) :
    ∃ b, IsBody b ∧ body = acc.reverse ++ b ∧ cs = b ++ '"' :: rest := by
  induction acc, cs using stringBody.induct with
  | case1 acc rest' =>
      rw [stringBody] at h
      cases h
      exact ⟨[], .nil, (List.append_nil _).symm, rfl⟩
  | case2 acc a b c d rest' hhex ih =>
      rw [stringBody, if_pos hhex] at h
      obtain ⟨tail, htail, rfl, rfl⟩ := ih h
      exact ⟨'\\' :: 'u' :: a :: b :: c :: d :: tail, .unicode (isHex4_iff.2 ⟨hhex, rfl⟩) htail,
        by simp, rfl⟩
  | case3 acc a b c d rest' hhex =>
      rw [stringBody, if_neg hhex] at h
      cases h
  | case4 acc e rest' hu he ih =>
      rw [stringBody.eq_3 _ _ _ hu, if_pos he] at h
      obtain ⟨tail, htail, rfl, rfl⟩ := ih h
      have hescape := isEscape_iff.2 ⟨List.contains_iff_mem.1 he, rfl⟩
      exact ⟨'\\' :: e :: tail, .simple hescape htail, by simp, rfl⟩
  | case5 acc e rest' hu he =>
      rw [stringBody.eq_3 _ _ _ hu, if_neg he] at h
      cases h
  | case6 acc c rest' hquote hu he hbad =>
      rw [stringBody.eq_4 _ _ _ hquote hu he, if_pos hbad] at h
      cases h
  | case7 acc c rest' hquote hu he hbad ih =>
      rw [stringBody.eq_4 _ _ _ hquote hu he, if_neg hbad] at h
      obtain ⟨tail, htail, rfl, rfl⟩ := ih h
      obtain ⟨hcontrol, hbackslash⟩ := not_or.1 hbad
      exact ⟨c :: tail, .plain (Nat.not_lt.1 hcontrol) hquote hbackslash htail, by simp, rfl⟩
  | case8 acc => cases h

/-- What may stand between quotes is read up to the closing one. -/
theorem stringBody_append {b : List Char} (h : IsBody b) (acc rest : List Char) :
    stringBody acc (b ++ '"' :: rest) = some (acc.reverse ++ b, rest) := by
  induction h generalizing acc with
  | nil => simp [stringBody]
  | @plain c cs hcontrol hquote hbackslash h ih =>
      have hgood : ¬ (c.toNat < 0x20 ∨ c = '\\') :=
        not_or.2 ⟨Nat.not_lt.2 hcontrol, hbackslash⟩
      rw [List.cons_append, stringBody.eq_4 _ _ _ hquote
        (fun _ _ _ _ _ hc _ => hbackslash hc) (fun _ _ hc _ => hbackslash hc), if_neg hgood, ih]
      simp
  | @simple e c cs he h ih =>
      have hu := he.ne_u
      rw [List.cons_append, List.cons_append,
        stringBody.eq_3 _ _ _ (fun _ _ _ _ _ hc _ => hu hc),
        if_pos (List.contains_iff_mem.2 (isEscape_iff.1 he).1), ih]
      simp
  | @unicode h₁ h₂ h₃ h₄ n cs hcode h ih =>
      show stringBody acc ('\\' :: 'u' :: h₁ :: h₂ :: h₃ :: h₄ :: (cs ++ '"' :: rest)) = _
      rw [stringBody, if_pos (isHex4_iff.1 hcode).1, ih]
      simp

/-! ## §5. What is read is spelled. -/

/-- Blanks may stand before the first item. -/
theorem Spells.blanks_items {gap cs : List Char} {js : List JsonText} (hgap : AreBlanks gap)
    (h : Spells (.items js) cs) : Spells (.items js) (gap ++ cs) := by
  cases h with
  | item hbefore h hafter =>
      rw [← List.append_assoc]
      exact .item (areBlanks_append hgap hbefore) h hafter
  | itemThen hbefore h hafter hrest =>
      rw [← List.append_assoc]
      exact .itemThen (areBlanks_append hgap hbefore) h hafter hrest

/-- Blanks may stand before the first member. -/
theorem Spells.blanks_members {gap cs : List Char} {ms : List (List Char × JsonText)}
    (hgap : AreBlanks gap) (h : Spells (.members ms) cs) : Spells (.members ms) (gap ++ cs) := by
  cases h with
  | member hbefore =>
      rw [← List.append_assoc]
      exact .member (areBlanks_append hgap hbefore) ‹_› ‹_› ‹_› ‹_› ‹_›
  | memberThen hbefore =>
      rw [← List.append_assoc]
      exact .memberThen (areBlanks_append hgap hbefore) ‹_› ‹_› ‹_› ‹_› ‹_› ‹_›

/-- Whether with that much fuel only what is spelled is read. -/
structure ReadsSpelled (fuel : Nat) : Prop where
  value : ∀ {cs j rest}, value fuel cs = some (j, rest) →
    ∃ gap body, AreBlanks gap ∧ Spells (.value j) body ∧ cs = gap ++ (body ++ rest)
  items : ∀ {cs js rest}, items fuel cs = some (js, rest) →
    ∃ body, Spells (.items js) body ∧ cs = body ++ ']' :: rest
  members : ∀ {cs ms rest}, members fuel cs = some (ms, rest) →
    ∃ body, Spells (.members ms) body ∧ cs = body ++ '\x7d' :: rest

namespace ReadsSpelled

variable {fuel : Nat}

theorem value_succ (h : ReadsSpelled fuel) {cs rest : List Char} {j : JsonText}
    (hread : JsonText.value (fuel + 1) cs = some (j, rest)) :
    ∃ gap body, AreBlanks gap ∧ Spells (.value j) body ∧ cs = gap ++ (body ++ rest) := by
  obtain ⟨gap, hgap, hcs⟩ := exists_blanks cs
  -- what is behind the blanks is the value and the rest
  suffices hbody : ∃ body, Spells (.value j) body ∧ skipBlanks cs = body ++ rest by
    obtain ⟨body, hspells, hbody⟩ := hbody
    exact ⟨gap, body, hgap, hspells, hbody ▸ hcs⟩
  rw [JsonText.value] at hread
  -- by the first character: a word, a string, an array, an object or a number
  split at hread
  · next heq =>
      cases hread
      exact ⟨_, .word (by decide : "null" ∈ _), heq⟩
  · next heq =>
      cases hread
      exact ⟨_, .word (by decide : "true" ∈ _), heq⟩
  · next heq =>
      cases hread
      exact ⟨_, .word (by decide : "false" ∈ _), heq⟩
  · next cs' heq =>
      obtain ⟨⟨b, cs''⟩, hstring, hj⟩ := Option.map_eq_some_iff.1 hread
      cases hj
      obtain ⟨b, hb, rfl, rfl⟩ := isBody_of_stringBody hstring
      exact ⟨_, .string hb, by rw [heq]; simp⟩
  · next cs' heq =>
      obtain ⟨gap', hgap', hcs'⟩ := exists_blanks cs'
      split at hread
      · next heq' =>
          cases hread
          exact ⟨_, .noItems hgap', by rw [heq, hcs', heq']; simp⟩
      · next heq' =>
          obtain ⟨⟨js, cs''⟩, hitems, hj⟩ := Option.map_eq_some_iff.1 hread
          cases hj
          obtain ⟨body, hbody, heq''⟩ := h.items hitems
          exact ⟨_, .array (hbody.blanks_items hgap'), by rw [heq, hcs', heq'']; simp⟩
  · next c cs' _ _ _ _ _ heq =>
      split at hread
      · next hbrace =>
          obtain rfl : c = '\x7b' := Char.toNat_inj.1 hbrace
          obtain ⟨gap', hgap', hcs'⟩ := exists_blanks cs'
          split at hread
          · cases hread
          · next d more heq' =>
              split at hread
              · next hbrace' =>
                  obtain rfl : d = '\x7d' := Char.toNat_inj.1 hbrace'
                  cases hread
                  exact ⟨_, .noMembers hgap', by rw [heq, hcs', heq']; simp⟩
              · obtain ⟨⟨ms, cs''⟩, hmembers, hj⟩ := Option.map_eq_some_iff.1 hread
                cases hj
                obtain ⟨body, hbody, heq''⟩ := h.members hmembers
                exact ⟨_, .object (hbody.blanks_members hgap'),
                  by rw [heq, hcs', heq', heq'']; simp⟩
      · obtain ⟨⟨ds, cs''⟩, hnumber, hj⟩ := Option.map_eq_some_iff.1 hread
        cases hj
        obtain ⟨hds, hcs'⟩ := isNumber_of_numberChars hnumber
        exact ⟨_, .number hds, heq.trans hcs'⟩
  · cases hread

theorem items_succ (h : ReadsSpelled fuel) {cs rest : List Char} {js : List JsonText}
    (hread : JsonText.items (fuel + 1) cs = some (js, rest)) :
    ∃ body, Spells (.items js) body ∧ cs = body ++ ']' :: rest := by
  rw [JsonText.items] at hread
  split at hread
  · cases hread
  · next j cs' hvalue =>
      obtain ⟨gap, body, hgap, hbody, rfl⟩ := h.value hvalue
      obtain ⟨gap', hgap', hcs'⟩ := exists_blanks cs'
      split at hread
      · next cs'' heq =>
          obtain ⟨⟨js', _⟩, hitems, hj⟩ := Option.map_eq_some_iff.1 hread
          cases hj
          obtain ⟨rest', hrest', rfl⟩ := h.items hitems
          exact ⟨_, .itemThen hgap hbody hgap' hrest', by rw [hcs', heq]; simp⟩
      · next heq =>
          cases hread
          exact ⟨_, .item hgap hbody hgap', by rw [hcs', heq]; simp⟩
      · cases hread

theorem members_succ (h : ReadsSpelled fuel) {cs rest : List Char}
    {ms : List (List Char × JsonText)}
    (hread : JsonText.members (fuel + 1) cs = some (ms, rest)) :
    ∃ body, Spells (.members ms) body ∧ cs = body ++ '\x7d' :: rest := by
  obtain ⟨before, hbefore, hcs⟩ := exists_blanks cs
  rw [JsonText.members] at hread
  split at hread
  · next cs₁ heq₁ =>
      split at hread
      · cases hread
      · next key cs₂ hstring =>
          obtain ⟨key, hkey, rfl, rfl⟩ := isBody_of_stringBody hstring
          obtain ⟨gap, hgap, hcs₂⟩ := exists_blanks cs₂
          split at hread
          · next cs₃ heq₃ =>
              split at hread
              · cases hread
              · next j cs₄ hvalue =>
                  obtain ⟨gap', body, hgap', hbody, rfl⟩ := h.value hvalue
                  obtain ⟨after, hafter, hcs₄⟩ := exists_blanks cs₄
                  split at hread
                  · next cs₅ heq₅ =>
                      obtain ⟨⟨ms', _⟩, hmembers, hj⟩ := Option.map_eq_some_iff.1 hread
                      cases hj
                      obtain ⟨rest', hrest', rfl⟩ := h.members hmembers
                      refine ⟨_, .memberThen hbefore hkey hgap hgap' hbody hafter hrest', ?_⟩
                      rw [hcs, heq₁, hcs₂, heq₃, hcs₄, heq₅]
                      simp
                  · next c cs₅ _ heq₅ =>
                      split at hread
                      · next hbrace =>
                          obtain rfl : c = '\x7d' := Char.toNat_inj.1 hbrace
                          cases hread
                          refine ⟨_, .member hbefore hkey hgap hgap' hbody hafter, ?_⟩
                          rw [hcs, heq₁, hcs₂, heq₃, hcs₄, heq₅]
                          simp
                      · cases hread
                  · cases hread
          · cases hread
  · cases hread

end ReadsSpelled

/-- **Whatever the fuel, only what is spelled is read.** -/
theorem readsSpelled (fuel : Nat) : ReadsSpelled fuel := by
  induction fuel with
  | zero => exact ⟨nofun, nofun, nofun⟩
  | succ fuel ih => exact ⟨ih.value_succ, ih.items_succ, ih.members_succ⟩

/-! ## §6. What is spelled is read. -/

section

variable (fuel : Nat) (cs : List Char)

theorem skipBlanks_skipBlanks : skipBlanks (skipBlanks cs) = skipBlanks cs :=
  List.dropWhile_idempotent _ _

theorem value_skipBlanks : value fuel (skipBlanks cs) = value fuel cs := by
  cases fuel with
  | zero => rfl
  | succ fuel => rw [value, value, skipBlanks_skipBlanks]

theorem value_gap {gap : List Char} (hgap : AreBlanks gap) :
    value fuel (gap ++ cs) = value fuel cs := by
  rw [← value_skipBlanks, skipBlanks_gap hgap, value_skipBlanks]

theorem items_skipBlanks : items fuel (skipBlanks cs) = items fuel cs := by
  cases fuel with
  | zero => rfl
  | succ fuel => rw [items, items, value_skipBlanks]

theorem members_skipBlanks : members fuel (skipBlanks cs) = members fuel cs := by
  cases fuel with
  | zero => rfl
  | succ fuel => rw [members, members, skipBlanks_skipBlanks]

/-- Behind a bracket is an item, or the end. -/
theorem items_bracket : items fuel (']' :: cs) = none := by
  cases fuel with
  | zero => rfl
  | succ fuel => cases fuel <;> rfl

theorem members_brace : members fuel ('\x7d' :: cs) = none := by
  cases fuel <;> rfl

theorem members_nil : members fuel [] = none := by
  cases fuel <;> rfl

/-! What a value is read as, by its first character. -/

theorem value_bracket_of_end {rest : List Char} (h : skipBlanks cs = ']' :: rest) :
    value (fuel + 1) ('[' :: cs) = some (.array [], rest) := by
  have hskip : skipBlanks ('[' :: cs) = '[' :: cs := rfl
  simp only [value, hskip, h]

theorem value_bracket_of_items {js : List JsonText} {rest : List Char}
    (h : items fuel cs = some (js, rest)) :
    value (fuel + 1) ('[' :: cs) = some (.array js, rest) := by
  have hskip : skipBlanks ('[' :: cs) = '[' :: cs := rfl
  rw [← items_skipBlanks] at h
  simp only [value, hskip]
  split
  · next heq =>
      rw [heq, items_bracket] at h
      cases h
  · rw [h]
    rfl

theorem value_brace :
    value (fuel + 1) ('\x7b' :: cs) =
      if (skipBlanks cs).head? = some '\x7d' then some (.object [], (skipBlanks cs).tail)
      else (members fuel (skipBlanks cs)).map (Prod.map .object id) := by
  have hskip : skipBlanks ('\x7b' :: cs) = '\x7b' :: cs := rfl
  have hbrace : Char.toNat '\x7b' = 0x7b := rfl
  rw [value, hskip]
  split
  -- no word, string or array starts with a brace
  case h_6 heq =>
    cases heq
    rw [if_pos hbrace]
    cases skipBlanks cs with
    | nil =>
        rw [members_nil]
        rfl
    | cons d more =>
        have hend : d.toNat = 0x7d ↔ some d = some '\x7d' := by
          rw [Option.some.injEq]
          exact Char.toNat_inj (d := '\x7d')
        exact if_congr hend rfl rfl
  all_goals
    next heq => cases heq

theorem value_brace_of_end {rest : List Char} (h : skipBlanks cs = '\x7d' :: rest) :
    value (fuel + 1) ('\x7b' :: cs) = some (.object [], rest) := by
  rw [value_brace, h]
  rfl

theorem value_brace_of_members {ms : List (List Char × JsonText)} {rest : List Char}
    (h : members fuel cs = some (ms, rest)) :
    value (fuel + 1) ('\x7b' :: cs) = some (.object ms, rest) := by
  rw [← members_skipBlanks] at h
  have hend : ¬ (skipBlanks cs).head? = some '\x7d' := by
    intro hhead
    obtain ⟨more, heq⟩ := List.head?_eq_some_iff.1 hhead
    rw [heq, members_brace] at h
    cases h
  rw [value_brace, if_neg hend, h]
  rfl

theorem value_of_numberChars {c : Char} {ds rest : List Char} (hc : c = '-' ∨ c.isDigit = true)
    (h : numberChars (c :: cs) = some (ds, rest)) :
    value (fuel + 1) (c :: cs) = some (.number ds, rest) := by
  -- no other value starts like a number, and neither do blanks
  have hother : c ∉ [' ', '\n', '\r', '\t', 'n', 't', 'f', '"', '[', '\x7b'] := by
    intro hmem
    have hnone : c ≠ '-' ∧ c.isDigit = false := by
      simp only [List.mem_cons, List.not_mem_nil, or_false] at hmem
      rcases hmem with rfl | rfl | rfl | rfl | rfl | rfl | rfl | rfl | rfl | rfl <;> decide
    rcases hc with hc | hc
    · exact hnone.1 hc
    · rw [hnone.2] at hc
      cases hc
  simp only [List.mem_cons, List.not_mem_nil, or_false, not_or] at hother
  obtain ⟨h1, h2, h3, h4, hn, ht, hf, hquote, hbracket, hbrace⟩ := hother
  have hskip : skipBlanks (c :: cs) = c :: cs := by
    refine List.dropWhile_cons_of_neg ?_
    simp [isBlank, h1, h2, h3, h4]
  rw [value, hskip]
  split
  · next heq => cases heq; exact absurd rfl hn
  · next heq => cases heq; exact absurd rfl ht
  · next heq => cases heq; exact absurd rfl hf
  · next heq => cases heq; exact absurd rfl hquote
  · next heq => cases heq; exact absurd rfl hbracket
  · next heq =>
      cases heq
      have hnat : ¬ c.toNat = 0x7b := fun hnat => hbrace (Char.toNat_inj.1 hnat)
      rw [if_neg hnat, h]
      rfl
  · next heq => cases heq

end

theorem IsNumber.first {ds : List Char} (h : IsNumber ds) :
    ∃ c cs, ds = c :: cs ∧ (c = '-' ∨ c.isDigit = true) := by
  obtain @⟨sign, whole, fraction, exponent, hsign, hwhole, -, -⟩ := h
  rcases hsign with rfl | rfl
  · cases hwhole with
    | zero => exact ⟨'0', _, rfl, .inr rfl⟩
    | digits hds =>
        cases whole with
        | nil => exact absurd rfl hds.nonempty
        | cons d ds => exact ⟨d, _, rfl, .inr (hds.digits d List.mem_cons_self)⟩
  · exact ⟨'-', _, rfl, .inl rfl⟩

theorem isBlank_of_mem_punctuation {c : Char} (hc : c ∈ [',', ']', '\x7d']) :
    isBlank c = false := by
  simp only [List.mem_cons, List.not_mem_nil, or_false] at hc
  rcases hc with rfl | rfl | rfl <;> rfl

theorem stopsNumber_of_areBlanks {gap : List Char} (hgap : AreBlanks gap) :
    StopsNumber gap := by
  intro c hc
  have hblank := hgap c (List.mem_of_mem_head? hc)
  simp only [List.mem_cons, List.not_mem_nil, or_false] at hblank
  rcases hblank with rfl | rfl | rfl | rfl <;> decide

/-- Behind a value there are blanks and punctuation, and nothing of a number. -/
theorem stopsNumber_append {gap : List Char} {c : Char} (hgap : AreBlanks gap)
    (hc : c ∈ [',', ']', '\x7d']) (rest : List Char) : StopsNumber (gap ++ c :: rest) := by
  cases gap with
  | nil =>
      rintro d ⟨⟩
      simp only [List.mem_cons, List.not_mem_nil, or_false] at hc
      rcases hc with rfl | rfl | rfl <;> decide
  | cons b gap => exact fun d hd => stopsNumber_of_areBlanks hgap d hd

/-- What it means that a part which is spelled is read, with fuel enough. -/
def IsReadBack : Part → List Char → Prop
  | .value j, cs => ∀ fuel rest, 2 * cs.length ≤ fuel → StopsNumber rest →
      value fuel (cs ++ rest) = some (j, rest)
  | .items js, cs => ∀ fuel rest, 2 * cs.length < fuel →
      items fuel (cs ++ ']' :: rest) = some (js, rest)
  | .members ms, cs => ∀ fuel rest, 2 * cs.length < fuel →
      members fuel (cs ++ '\x7d' :: rest) = some (ms, rest)

/-- An item and what is behind it. -/
theorem items_append {fuel : Nat} {before cs after behind : List Char} {j : JsonText} {c : Char}
    (hbefore : AreBlanks before) (hafter : AreBlanks after) (hc : c ∈ [',', ']', '\x7d'])
    (hvalue : IsReadBack (.value j) cs) (hfuel : 2 * cs.length ≤ fuel) :
    items (fuel + 1) (before ++ (cs ++ (after ++ c :: behind))) =
      match c :: behind with
      | ',' :: rest => (items fuel rest).map fun (js, rest) => (j :: js, rest)
      | ']' :: rest => some ([j], rest)
      | _ => none := by
  have hblank : isBlank c = false := isBlank_of_mem_punctuation hc
  rw [items, value_gap _ _ hbefore, hvalue _ _ hfuel (stopsNumber_append hafter hc _)]
  show (match skipBlanks (after ++ c :: behind) with | ',' :: _ => _ | ']' :: _ => _ | _ => _) = _
  rw [skipBlanks_append hafter hblank]

/-- A member and what is behind it. -/
theorem members_append {fuel : Nat} {before key gap gap' cs after behind : List Char}
    {j : JsonText} {c : Char} (hbefore : AreBlanks before) (hkey : IsBody key)
    (hgap : AreBlanks gap) (hgap' : AreBlanks gap') (hafter : AreBlanks after)
    (hc : c ∈ [',', ']', '\x7d']) (hvalue : IsReadBack (.value j) cs)
    (hfuel : 2 * cs.length ≤ fuel) :
    members (fuel + 1) (before ++ '"' :: (key ++ '"' :: (gap ++ ':' :: (gap' ++ (cs ++
        (after ++ c :: behind)))))) =
      match c :: behind with
      | ',' :: rest => (members fuel rest).map fun (ms, rest) => ((key, j) :: ms, rest)
      | c :: rest => if c.toNat = 0x7d then some ([(key, j)], rest) else none
      | [] => none := by
  have hquote := skipBlanks_append (c := '"') hbefore rfl
  have hcolon := skipBlanks_append (c := ':') hgap rfl
  have hend := skipBlanks_append hafter (isBlank_of_mem_punctuation hc)
  have hvalue' := hvalue fuel _ hfuel (stopsNumber_append hafter hc behind)
  simp only [members, hquote, stringBody_append hkey, hcolon, value_gap _ _ hgap', hvalue',
    List.reverse_nil, List.nil_append]
  show (match skipBlanks (after ++ c :: behind) with
    | ',' :: _ => _
    | _ :: _ => _
    | [] => _) = _
  rw [hend]

/-- **Whatever is spelled is read.** -/
theorem Spells.isReadBack {part : Part} {cs : List Char} (h : Spells part cs) :
    IsReadBack part cs := by
  induction h with
  | word hw =>
      intro fuel rest hfuel _
      simp only [List.mem_cons, List.not_mem_nil, or_false] at hw
      cases fuel with
      | zero => rcases hw with rfl | rfl | rfl <;> exact absurd hfuel (by decide)
      | succ fuel => rcases hw with rfl | rfl | rfl <;> rfl
  | number h =>
      intro fuel rest hfuel hstop
      obtain ⟨c, cs, rfl, hc⟩ := h.first
      cases fuel with
      | zero => cases hfuel
      | succ fuel => exact value_of_numberChars fuel _ hc (numberChars_append h hstop)
  | @string body h =>
      intro fuel rest hfuel _
      cases fuel with
      | zero => cases hfuel
      | succ fuel =>
          show (stringBody [] (body ++ ['"'] ++ rest)).map _ = _
          rw [List.append_assoc, List.singleton_append, stringBody_append h]
          rfl
  | @noItems gap hgap =>
      intro fuel rest hfuel _
      cases fuel with
      | zero => cases hfuel
      | succ fuel =>
          rw [List.cons_append, List.append_assoc]
          refine value_bracket_of_end fuel _ ?_
          exact skipBlanks_append hgap rfl rest
  | @array js cs h ih =>
      intro fuel rest hfuel _
      rw [List.length_cons, List.length_append, List.length_singleton] at hfuel
      cases fuel with
      | zero => omega
      | succ fuel =>
          rw [List.cons_append, List.append_assoc]
          refine value_bracket_of_items fuel _ ?_
          exact ih fuel rest (by omega)
  | @noMembers gap hgap =>
      intro fuel rest hfuel _
      cases fuel with
      | zero => cases hfuel
      | succ fuel =>
          rw [List.cons_append, List.append_assoc]
          refine value_brace_of_end fuel _ ?_
          exact skipBlanks_append hgap rfl rest
  | @object ms cs h ih =>
      intro fuel rest hfuel _
      rw [List.length_cons, List.length_append, List.length_singleton] at hfuel
      cases fuel with
      | zero => omega
      | succ fuel =>
          rw [List.cons_append, List.append_assoc]
          refine value_brace_of_members fuel _ ?_
          exact ih fuel rest (by omega)
  | @item j before cs after hbefore h hafter ih =>
      intro fuel rest hfuel
      simp only [List.length_append] at hfuel
      cases fuel with
      | zero => omega
      | succ fuel =>
          rw [List.append_assoc, List.append_assoc,
            items_append hbefore hafter (by decide) ih (by omega)]
          rfl
  | @itemThen j js before cs after rest hbefore h hafter hrest ih ihRest =>
      intro fuel rest' hfuel
      simp only [List.length_append, List.length_cons] at hfuel
      cases fuel with
      | zero => omega
      | succ fuel =>
          simp only [List.append_assoc, List.cons_append]
          rw [items_append hbefore hafter (by decide) ih (by omega)]
          show (items fuel (rest ++ ']' :: rest')).map _ = _
          rw [ihRest fuel rest' (by omega)]
          rfl
  | @member key j before gap gap' cs after hbefore hkey hgap hgap' h hafter ih =>
      intro fuel rest hfuel
      simp only [List.length_append, List.length_cons] at hfuel
      cases fuel with
      | zero => omega
      | succ fuel =>
          simp only [List.append_assoc, List.cons_append]
          rw [members_append hbefore hkey hgap hgap' hafter (by decide) ih (by omega)]
          rfl
  | @memberThen key j ms before gap gap' cs after rest hbefore hkey hgap hgap' h hafter hrest ih
      ihRest =>
      intro fuel rest' hfuel
      simp only [List.length_append, List.length_cons] at hfuel
      cases fuel with
      | zero => omega
      | succ fuel =>
          simp only [List.append_assoc, List.cons_append]
          rw [members_append hbefore hkey hgap hgap' hafter (by decide) ih (by omega)]
          show (members fuel (rest ++ '\x7d' :: rest')).map _ = _
          rw [ihRest fuel rest' (by omega)]
          rfl

/-- **The reader accepts strict JSON, and nothing else.** -/
theorem parse?_eq_some_iff {text : String} {j : JsonText} :
    parse? text = some j ↔ IsJson text j := by
  unfold parse?
  constructor
  · intro h
    dsimp only at h
    split at h
    · next j' rest hvalue =>
        obtain ⟨gap, body, hgap, hbody, heq⟩ := (readsSpelled _).value hvalue
        split at h
        · next hrest =>
            cases h
            obtain ⟨after, hafter, hrest'⟩ := exists_blanks rest
            rw [List.isEmpty_iff.1 hrest, List.append_nil] at hrest'
            exact ⟨gap, body, rest, hgap, hbody, hrest' ▸ hafter, heq⟩
        · cases h
    · cases h
  · rintro ⟨before, cs, after, hbefore, hcs, hafter, heq⟩
    have hstop : StopsNumber after := stopsNumber_of_areBlanks hafter
    have hlength : 2 * cs.length ≤ 2 * text.toList.length + 2 := by
      rw [heq]
      simp only [List.length_append]
      omega
    dsimp only
    rw [heq, value_gap _ _ hbefore, ← heq, hcs.isReadBack _ _ hlength hstop]
    show (if (skipBlanks after).isEmpty then some j else none) = some j
    rw [skipBlanks_of_areBlanks hafter]
    rfl

/-! ## §7. The parts of what is spelled. -/

/-- Whether a value is spelled by any characters. -/
def IsSpelled (j : JsonText) : Prop := ∃ cs, Spells (.value j) cs

/-- Whether the parts of a part are spelled in turn. -/
def HasSpelledParts : Part → Prop
  | .value _ => True
  | .items js => ∀ j ∈ js, IsSpelled j
  | .members ms => ∀ m ∈ ms, IsBody m.1 ∧ IsSpelled m.2

theorem Spells.hasSpelledParts {part : Part} {cs : List Char} (h : Spells part cs) :
    HasSpelledParts part := by
  induction h with
  | item _ h _ => exact List.forall_mem_singleton.2 ⟨_, h⟩
  | itemThen _ h _ _ _ ihRest => exact List.forall_mem_cons.2 ⟨⟨_, h⟩, ihRest⟩
  | member _ hkey _ _ h _ => exact List.forall_mem_singleton.2 ⟨hkey, _, h⟩
  | memberThen _ hkey _ _ h _ _ _ ihRest => exact List.forall_mem_cons.2 ⟨⟨hkey, _, h⟩, ihRest⟩
  | _ => trivial

theorem IsJson.isSpelled {text : String} {j : JsonText} (h : IsJson text j) : IsSpelled j := by
  obtain ⟨_, cs, _, _, hcs, _⟩ := h
  exact ⟨cs, hcs⟩

namespace IsSpelled

theorem isBody {body : List Char} (h : IsSpelled (.string body)) : IsBody body := by
  obtain ⟨cs, h⟩ := h
  cases h with
  | string hbody => exact hbody

theorem isNumber {ds : List Char} (h : IsSpelled (.number ds)) : IsNumber ds := by
  obtain ⟨cs, h⟩ := h
  cases h with
  | number hds => exact hds

theorem items {js : List JsonText} (h : IsSpelled (.array js)) : ∀ j ∈ js, IsSpelled j := by
  obtain ⟨cs, h⟩ := h
  cases h with
  | noItems => exact fun _ hj => nomatch hj
  | array h => exact h.hasSpelledParts

theorem members {ms : List (List Char × JsonText)} (h : IsSpelled (.object ms)) :
    ∀ m ∈ ms, IsBody m.1 ∧ IsSpelled m.2 := by
  obtain ⟨cs, h⟩ := h
  cases h with
  | noMembers => exact fun _ hm => nomatch hm
  | object h => exact h.hasSpelledParts

end IsSpelled

/-! ## §8. What strings stand for. -/

/-- Which characters the body of a string stands for.  An escaped code is that of a
character, or the first half of one of which the second half has to follow. -/
inductive Denotes : List Char → List Char → Prop where
  | nil : Denotes [] []
  | plain {c : Char} {cs ds : List Char} (hc : c ≠ '\\') (h : Denotes cs ds) :
      Denotes (c :: cs) (c :: ds)
  | simple {e c : Char} {cs ds : List Char} (he : IsEscape e c) (h : Denotes cs ds) :
      Denotes ('\\' :: e :: cs) (c :: ds)
  | code {h₁ h₂ h₃ h₄ c : Char} {cs ds : List Char} (hcode : IsHex4 h₁ h₂ h₃ h₄ c.toNat)
      (h : Denotes cs ds) : Denotes ('\\' :: 'u' :: h₁ :: h₂ :: h₃ :: h₄ :: cs) (c :: ds)
  | halves {h₁ h₂ h₃ h₄ l₁ l₂ l₃ l₄ c : Char} {high low : Nat} {cs ds : List Char}
      (hhigh : IsHex4 h₁ h₂ h₃ h₄ high) (hlow : IsHex4 l₁ l₂ l₃ l₄ low)
      (hhighs : 0xd800 ≤ high ∧ high < 0xdc00) (hlows : 0xdc00 ≤ low ∧ low < 0xe000)
      (hc : c.toNat = 0x10000 + (high - 0xd800) * 0x400 + (low - 0xdc00)) (h : Denotes cs ds) :
      Denotes
        ('\\' :: 'u' :: h₁ :: h₂ :: h₃ :: h₄ :: '\\' :: 'u' :: l₁ :: l₂ :: l₃ :: l₄ :: cs)
        (c :: ds)

section

variable {h₁ h₂ h₃ h₄ l₁ l₂ l₃ l₄ : Char} {cs ds : List Char}

theorem contents_code (hwhole : hex4 h₁ h₂ h₃ h₄ < 0xd800 ∨ 0xe000 ≤ hex4 h₁ h₂ h₃ h₄) :
    contents ('\\' :: 'u' :: h₁ :: h₂ :: h₃ :: h₄ :: cs)
      = (contents cs).map (Char.ofNat (hex4 h₁ h₂ h₃ h₄) :: ·) := by
  rw [contents.eq_def]
  dsimp only
  exact if_pos hwhole

/-- The code of a half is followed by that of the other half, or has no contents. -/
theorem eq_of_contents_half (hhalf : ¬ (hex4 h₁ h₂ h₃ h₄ < 0xd800 ∨ 0xe000 ≤ hex4 h₁ h₂ h₃ h₄))
    (h : contents ('\\' :: 'u' :: h₁ :: h₂ :: h₃ :: h₄ :: cs) = some ds) :
    hex4 h₁ h₂ h₃ h₄ < 0xdc00 ∧ ∃ l₁ l₂ l₃ l₄ cs' ds',
      cs = '\\' :: 'u' :: l₁ :: l₂ :: l₃ :: l₄ :: cs'
        ∧ (0xdc00 ≤ hex4 l₁ l₂ l₃ l₄ ∧ hex4 l₁ l₂ l₃ l₄ < 0xe000) ∧ contents cs' = some ds'
        ∧ ds = Char.ofNat (0x10000 + (hex4 h₁ h₂ h₃ h₄ - 0xd800) * 0x400
          + (hex4 l₁ l₂ l₃ l₄ - 0xdc00)) :: ds' := by
  rw [contents.eq_def] at h
  simp only [if_neg hhalf] at h
  split at h
  · cases h
  · next hhigh =>
      split at h
      · next l₁ l₂ l₃ l₄ cs' =>
          split at h
          · next hlow =>
              obtain ⟨ds', hds', rfl⟩ := Option.map_eq_some_iff.1 h
              exact ⟨Nat.not_le.1 hhigh, l₁, l₂, l₃, l₄, cs', ds', rfl, hlow, hds', rfl⟩
          · cases h
      · cases h

theorem contents_halves (hhigh : 0xd800 ≤ hex4 h₁ h₂ h₃ h₄ ∧ hex4 h₁ h₂ h₃ h₄ < 0xdc00)
    (hlow : 0xdc00 ≤ hex4 l₁ l₂ l₃ l₄ ∧ hex4 l₁ l₂ l₃ l₄ < 0xe000) :
    contents ('\\' :: 'u' :: h₁ :: h₂ :: h₃ :: h₄ :: '\\' :: 'u' :: l₁ :: l₂ :: l₃ :: l₄ :: cs)
      = (contents cs).map (Char.ofNat (0x10000 + (hex4 h₁ h₂ h₃ h₄ - 0xd800) * 0x400
          + (hex4 l₁ l₂ l₃ l₄ - 0xdc00)) :: ·) := by
  have hhalf : ¬ (hex4 h₁ h₂ h₃ h₄ < 0xd800 ∨ 0xe000 ≤ hex4 h₁ h₂ h₃ h₄) := by omega
  rw [contents.eq_1, if_neg hhalf, if_neg (Nat.not_le.2 hhigh.2)]
  exact if_pos hlow

end

/-- A code that is not that of a half is the code of a character. -/
theorem toNat_ofNat {n : Nat} (h : n < 0xd800 ∨ 0xe000 ≤ n) (hlt : n < 0x110000) :
    (Char.ofNat n).toNat = n := by
  have hvalid : n.isValidChar := by
    unfold Nat.isValidChar
    omega
  rw [Char.ofNat, dif_pos hvalid]
  rfl

theorem toNat_whole (c : Char) : c.toNat < 0xd800 ∨ 0xe000 ≤ c.toNat := by
  have hvalid : c.toNat.isValidChar := c.valid
  unfold Nat.isValidChar at hvalid
  omega

/-- The contents of a string are what it stands for. -/
theorem denotes_of_contents {body : List Char} (hbody : IsBody body) :
    ∀ {ds}, contents body = some ds → Denotes body ds := by
  -- two escapes may be one step, so the induction is on the length
  induction hn : body.length using Nat.strong_induction_on generalizing body with
  | _ n ih =>
  subst hn
  intro ds h
  cases hbody with
  | nil =>
      cases h
      exact .nil
  | @plain c cs _ _ hbackslash hcs =>
      rw [contents.eq_4 _ _ (fun _ _ _ _ _ hc _ => hbackslash hc)
        (fun _ _ hc _ => hbackslash hc)] at h
      obtain ⟨ds, hds, rfl⟩ := Option.map_eq_some_iff.1 h
      exact .plain hbackslash (ih _ (by show cs.length < cs.length + 1; omega) hcs rfl hds)
  | @simple e c cs he hcs =>
      have hu := he.ne_u
      rw [contents.eq_3 _ _ (fun _ _ _ _ _ hc _ => hu hc), (isEscape_iff.1 he).2] at h
      obtain ⟨ds, hds, rfl⟩ := Option.map_eq_some_iff.1 h
      exact .simple he (ih _ (by show cs.length < cs.length + 2; omega) hcs rfl hds)
  | @unicode h₁ h₂ h₃ h₄ n cs hcode hcs =>
      obtain ⟨_, rfl⟩ := isHex4_iff.1 hcode
      by_cases hwhole : hex4 h₁ h₂ h₃ h₄ < 0xd800 ∨ 0xe000 ≤ hex4 h₁ h₂ h₃ h₄
      · rw [contents_code hwhole] at h
        obtain ⟨ds, hds, rfl⟩ := Option.map_eq_some_iff.1 h
        rw [← toNat_ofNat hwhole (Nat.lt_trans hcode.lt (by decide))] at hcode
        exact .code hcode (ih _ (by show cs.length < cs.length + 6; omega) hcs rfl hds)
      · obtain ⟨hlt, l₁, l₂, l₃, l₄, cs', ds', rfl, hlow, hds', rfl⟩ :=
          eq_of_contents_half hwhole h
        -- the other half is an escape of its own
        cases hcs with
        | plain _ _ hbackslash => exact absurd rfl hbackslash
        | simple he => exact absurd rfl he.ne_u
        | unicode hcode' hcs' =>
            obtain ⟨_, rfl⟩ := isHex4_iff.1 hcode'
            exact .halves hcode hcode' ⟨by omega, hlt⟩ hlow (toNat_ofNat (by omega) (by omega))
              (ih _ (by show cs'.length < cs'.length + 12; omega) hcs' rfl hds')

theorem contents_of_denotes {body ds : List Char} (h : Denotes body ds) :
    contents body = some ds := by
  induction h with
  | nil => rfl
  | plain hc h ih =>
      rw [contents.eq_4 _ _ (fun _ _ _ _ _ hc' _ => hc hc') (fun _ _ hc' _ => hc hc'), ih]
      rfl
  | simple he h ih =>
      have hu := he.ne_u
      rw [contents.eq_3 _ _ (fun _ _ _ _ _ hc _ => hu hc), ih, (isEscape_iff.1 he).2]
      rfl
  | @code h₁ h₂ h₃ h₄ c cs ds hcode h ih =>
      obtain ⟨_, hhex⟩ := isHex4_iff.1 hcode
      have hwhole := toNat_whole c
      rw [← hhex] at hwhole
      rw [contents_code hwhole, ih, hhex, Char.ofNat_toNat]
      rfl
  | @halves h₁ h₂ h₃ h₄ l₁ l₂ l₃ l₄ c high low cs ds hhigh hlow hhighs hlows hc h ih =>
      obtain ⟨_, rfl⟩ := isHex4_iff.1 hhigh
      obtain ⟨_, rfl⟩ := isHex4_iff.1 hlow
      rw [contents_halves hhighs hlows, ih, ← hc, Char.ofNat_toNat]
      rfl

end LispLink.JsonText
