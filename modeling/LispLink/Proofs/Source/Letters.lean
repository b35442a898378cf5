/-
  LispLink.Proofs.Source.Letters
  ────────────────────────────────
  **THE CASE OF ASCII LETTERS.**

  A letter from A to Z and its lower case are the same to the scanner: both are
  alphabetic, neither is blank, and no character it looks for is a letter.  They
  have the same upper case as well.  So writing a text in lower case

      tokenize (lowered s)  =  the tokens of s, their texts in lower case

  changes the texts of its tokens, and neither where they are nor what kind they
  have; and lower case is a spelling that recognition does not look at (`lowering`).
-/
import LispLink.Proofs.Source.Alteration

namespace LispLink

/-! ## §1. Characters. -/

namespace Text

/-- A text with its ASCII letters in lower case. -/
def lowered (s : String) : String := String.ofList (foldLetters s)

@[simp] theorem toList_lowered (s : String) : (lowered s).toList = s.toList.map Char.toLower :=
  String.toList_ofList

theorem lowered_eq_iff {s t : String} : lowered s = lowered t ↔ sameLetters s t = true := by
  rw [sameLetters_iff, ← String.toList_inj]
  simp [foldLetters]

/-- The letters from A to Z, which have another lower case. -/
def capitals : List Char := (List.range 26).map fun i => Char.ofNat (0x41 + i)

theorem toLower_eq_or_mem (c : Char) : c.toLower = c ∨ c ∈ capitals := by
  by_cases h : 0x41 ≤ c.toNat ∧ c.toNat ≤ 0x5a
  · right
    have hcode : 0x41 + (c.toNat - 0x41) = c.toNat := by omega
    refine List.mem_map.2 ⟨c.toNat - 0x41, List.mem_range.2 (by omega), ?_⟩
    rw [hcode, Char.ofNat_toNat]
  · left
    unfold Char.toLower
    rw [dif_neg]
    intro ⟨hfirst, hlast⟩
    exact h ⟨hfirst, hlast⟩

/-- What capitals share with their lower case, every character does. -/
theorem toLower_congr {f : Char → β}
    (h : capitals.map (fun c => f c.toLower) = capitals.map f) (c : Char) :
    f c.toLower = f c := by
  rcases toLower_eq_or_mem c with heq | hc
  · rw [heq]
  · exact List.map_inj_left.1 h c hc

theorem isBlank_toLower (c : Char) : isBlank c.toLower = isBlank c :=
  toLower_congr (by decide) c

theorem isAlphabetic_toLower (c : Char) : isAlphabetic c.toLower = isAlphabetic c :=
  toLower_congr (by decide) c

theorem isAlphanumeric_toLower (c : Char) : isAlphanumeric c.toLower = isAlphanumeric c :=
  toLower_congr (by decide) c

theorem upperChar_toLower (c : Char) : upperChar c.toLower = upperChar c :=
  toLower_congr (by decide) c

/-- Only a letter becomes another character, and then it becomes a letter. -/
theorem toLower_eq_iff {c x : Char} (hx : x.isAlpha = false) : c.toLower = x ↔ c = x := by
  rcases toLower_eq_or_mem c with heq | hc
  · rw [heq]
  · have hletters : capitals.all (fun c => c.toLower.isAlpha && c.isAlpha) = true := by decide
    have hc := List.all_eq_true.1 hletters c hc
    rw [Bool.and_eq_true] at hc
    refine iff_of_false ?_ ?_
    · intro heq
      rw [heq, hx] at hc
      exact Bool.false_ne_true hc.1
    · intro heq
      rw [heq, hx] at hc
      exact Bool.false_ne_true hc.2

theorem toLower_beq {c x : Char} (hx : x.isAlpha = false) : (c.toLower == x) = (c == x) := by
  rw [Bool.eq_iff_iff, beq_iff_eq, beq_iff_eq, toLower_eq_iff hx]

theorem toNat_toLower_beq (c : Char) : (c.toLower.toNat == 0x60) = (c.toNat == 0x60) :=
  toLower_congr (f := fun c => c.toNat == 0x60) (by decide) c

theorem upper_lowered (s : String) : upper (lowered s) = upper s := by
  unfold upper
  rw [toList_lowered, List.flatMap_map]
  simp only [upperChar_toLower]

end Text

namespace Source

open Text

/-! ## §2. The scanner. -/

theorem isDelimiter_toLower (c : Char) : isDelimiter c.toLower = isDelimiter c := by
  simp (disch := decide) only [isDelimiter, isBlank_toLower, toLower_beq]

namespace Lexeme

theorem start_toLower (c : Char) : start c.toLower = start c := by
  simp (disch := decide) only [start, isBlank_toLower, toLower_beq, toNat_toLower_beq]

theorem stepRun_toLower (c : Char) : stepRun c.toLower = stepRun c := by
  simp (disch := decide) only [stepRun, isDelimiter_toLower, toLower_beq]

/-- A block comment keeps the half of a pair, which is no letter. -/
theorem stepBlock_toLower (depth : Nat) (half : Option Char) (c : Char) :
    stepBlock depth half c.toLower = stepBlock depth half c := by
  by_cases hc : c = '#' ∨ c = '|'
  · rcases hc with rfl | rfl <;> rfl
  · have hc' : ¬ (c.toLower = '#' ∨ c.toLower = '|') := by
      rw [toLower_eq_iff (by decide), toLower_eq_iff (by decide)]
      exact hc
    obtain ⟨hsharp, hbar⟩ := not_or.1 hc
    obtain ⟨hsharp', hbar'⟩ := not_or.1 hc'
    simp only [stepBlock, hsharp, hbar, hsharp', hbar', and_false, or_self, if_false]

theorem stepDatum_toLower (depth : Nat) (mode : DatumMode) (c : Char) :
    stepDatum depth mode c.toLower = stepDatum depth mode c := by
  cases mode <;> simp (disch := decide) only [stepDatum, toLower_beq]

/-- **The scanner does not tell a letter from its lower case.** -/
theorem step_toLower (s : Lexeme) (c : Char) : s.step c.toLower = s.step c := by
  cases s with
  | fenced fence escaped =>
      cases escaped with
      | true => rfl
      | false =>
          have hmark : fence.mark.isAlpha = false := by cases fence <;> rfl
          simp only [step, toLower_beq hmark, toLower_beq (x := '\\') rfl]
  | blank | comment | comma | sharp | block | character | characterName | sharpRun | datum | word =>
      simp (disch := decide) only [step, isBlank_toLower, isAlphabetic_toLower,
        isAlphanumeric_toLower, isDelimiter_toLower, toLower_beq, stepRun_toLower,
        stepBlock_toLower, stepDatum_toLower]
  | openParen | closeParen | fenceClosed | quote | backquote | splice | blockClosed
  | sharpClosed => rfl

/-- The vocabulary is looked up by upper case. -/
theorem kind_lowered (s : Lexeme) (text : String) : s.kind (lowered text) = s.kind text := by
  have hcolon : ':' ∈ text.toList.map Char.toLower ↔ ':' ∈ text.toList := by
    rw [List.mem_map]
    constructor
    · intro ⟨c, hc, heq⟩
      rw [toLower_eq_iff (by decide)] at heq
      exact heq ▸ hc
    · intro hc
      exact ⟨':', hc, rfl⟩
  have hword : Kind.ofWord (lowered text) = Kind.ofWord text := by
    unfold Kind.ofWord
    simp only [toList_lowered, hcolon, upper_lowered]
  cases s with
  | word => exact hword
  | fenced fence escaped => cases fence <;> rfl
  | fenceClosed fence => cases fence <;> rfl
  | _ => rfl

end Lexeme

theorem Position.after_toLower (p : Position) (c : Char) : p.after c.toLower = p.after c := by
  simp (disch := decide) only [after, toLower_eq_iff]

/-! ## §3. Designators. -/

theorem designatedChars_toLower (cs : List Char) :
    designatedChars (cs.map Char.toLower) = (designatedChars cs).map Char.toLower := by
  fun_cases designatedChars cs with
  | case1 rest => rfl
  | case2 rest => rfl
  | case3 rest hlast =>
      have hlast' : (rest.map Char.toLower).getLast? = some '"' := by
        rw [List.getLast?_map, hlast]
        rfl
      show (if (rest.map Char.toLower).getLast? = some '"' then _ else _) = _
      rw [if_pos hlast', List.map_dropLast]
  | case4 rest hlast =>
      have hlast' : (rest.map Char.toLower).getLast? ≠ some '"' := by
        rw [List.getLast?_map, Ne, Option.map_eq_some_iff]
        intro ⟨c, hc, heq⟩
        rw [toLower_eq_iff (by decide)] at heq
        exact hlast (heq ▸ hc)
      show (if (rest.map Char.toLower).getLast? = some '"' then _ else _) = _
      rw [if_neg hlast']
      rfl
  | case5 cs hsharp hcolon hquote =>
      -- in lower case it begins with no mark of a designator either
      have hcons : ∀ x rest, x.isAlpha = false → cs.map Char.toLower = x :: rest →
          ∃ cs', cs = x :: cs' ∧ cs'.map Char.toLower = rest := by
        intro x rest hx heq
        obtain ⟨c, cs', rfl, hc, hrest⟩ := List.map_eq_cons_iff.1 heq
        exact ⟨cs', by rw [(toLower_eq_iff hx).1 hc], hrest⟩
      refine designatedChars.eq_4 _ ?_ ?_ ?_
      · intro rest heq
        obtain ⟨cs', hcs, heq⟩ := hcons '#' _ rfl heq
        obtain ⟨c, cs'', rfl, hc, _⟩ := List.map_eq_cons_iff.1 heq
        rw [(toLower_eq_iff rfl).1 hc] at hcs
        exact hsharp _ hcs
      · intro rest heq
        obtain ⟨cs', hcs, _⟩ := hcons ':' _ rfl heq
        exact hcolon _ hcs
      · intro rest heq
        obtain ⟨cs', hcs, _⟩ := hcons '"' _ rfl heq
        exact hquote _ hcs

theorem designated_lowered (s : String) : designated (lowered s) = lowered (designated s) := by
  unfold designated lowered foldLetters
  rw [String.toList_ofList, String.toList_ofList, designatedChars_toLower]

/-- Lower case for the letters of every text. -/
def lowering : Alteration where
  index := id
  start := id
  stop := id
  outline := id
  text := lowered
  keyword := by
    intro s
    rw [toList_lowered, List.head?_map, Option.map_eq_some_iff]
    simp (disch := decide) only [toLower_eq_iff, exists_eq_right]
  designated := designated_lowered
  upper := upper_lowered

/-! ## §4. Tokens. -/

def OpenToken.lowered (t : OpenToken) : OpenToken :=
  ⟨t.lexeme, t.start, t.stop, Text.lowered t.text⟩

def Lexing.lowered (s : Lexing) : Lexing :=
  ⟨s.done.map (Token.altered lowering), s.current.map OpenToken.lowered⟩

theorem OpenToken.start1_toLower (p : Position) (c : Char) :
    start1 p c.toLower = (start1 p c).lowered := by
  have htext : String.singleton c.toLower = Text.lowered (String.singleton c) := by
    rw [← String.toList_inj]
    simp
  unfold start1 OpenToken.lowered
  rw [Lexeme.start_toLower, Position.after_toLower, htext]

theorem OpenToken.extend_toLower (t : OpenToken) (s : Lexeme) (c : Char) :
    t.lowered.extend s c.toLower = (t.extend s c).lowered := by
  have htext : (Text.lowered t.text).push c.toLower = Text.lowered (t.text.push c) := by
    rw [← String.toList_inj]
    simp
  unfold extend OpenToken.lowered
  rw [Position.after_toLower, htext]

theorem OpenToken.close_lowered (t : OpenToken) : t.lowered.close = t.close.altered lowering := by
  unfold close OpenToken.lowered
  rw [Lexeme.kind_lowered]
  rfl

namespace Lexing

theorem push_toLower (s : Lexing) (c : Char) : s.lowered.push c.toLower = (s.push c).lowered := by
  obtain ⟨done, current⟩ := s
  cases current with
  | none =>
      show Lexing.mk _ (some (.start1 .origin c.toLower)) = _
      rw [OpenToken.start1_toLower]
      rfl
  | some t =>
      have hstep : t.lowered.lexeme.step c.toLower = t.lexeme.step c := t.lexeme.step_toLower c
      have hstop : t.lowered.stop = t.stop := rfl
      simp only [lowered, Option.map_some, push, hstep]
      cases t.lexeme.step c with
      | none =>
          simp only [OpenToken.start1_toLower, OpenToken.close_lowered, Array.map_push,
            Option.map_some, hstop]
      | some q => simp only [OpenToken.extend_toLower, Option.map_some]

theorem pushAll_toLower (s : Lexing) (cs : List Char) :
    s.lowered.pushAll (cs.map Char.toLower) = (s.pushAll cs).lowered := by
  induction cs generalizing s with
  | nil => rfl
  | cons c cs ih =>
      rw [List.map_cons, pushAll_cons, pushAll_cons, push_toLower, ih]

theorem tokens_lowered (s : Lexing) :
    s.lowered.tokens = s.tokens.map (Token.altered lowering) := by
  obtain ⟨done, current⟩ := s
  cases current with
  | none => simp [tokens, lowered]
  | some t => simp [tokens, lowered, OpenToken.close_lowered]

end Lexing

/-- **A text in lower case has the same tokens in lower case.** -/
theorem tokenize_lowered (s : String) :
    tokenize (lowered s) = (tokenize s).map (Token.altered lowering) := by
  have hbegin : Lexing.begin.lowered = Lexing.begin := by simp [Lexing.lowered, Lexing.begin]
  unfold tokenize
  rw [toList_lowered, ← Lexing.tokens_lowered, ← Lexing.pushAll_toLower, hbegin]

end Source

end LispLink
