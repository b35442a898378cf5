/-
  LispLink.Proofs.Value.Atoms
  ────────────────────────────────
  **THE TEXT OF AN ATOM.**

  A value that is no list is written as one token, and the token stands for the
  value it was written from:

      names       up to the next delimiter, whatever else is in them
      integers    a sign and digits, which no other rule claims first
      strings     each quote and backslash escaped, so that only the last
                  quote closes

  The automaton sees a word in all of them but strings (`atomLexeme`).
-/
import LispLink.Proofs.Source.Lexing
import LispLink.Proofs.Source.Steps
import LispLink.Proofs.Value.WireSafe

namespace LispLink.Value

open Number Source

/-! ## §1. Characters of words. -/

theorem isDelimiter_of_isDigit {c : Char} (h : c.isDigit = true) : isDelimiter c = false := by
  have hrange : 48 ≤ c.toNat ∧ c.toNat ≤ 57 := by
    simp only [Char.isDigit, Bool.and_eq_true, decide_eq_true_eq] at h
    exact ⟨h.1, h.2⟩
  have hne : ∀ d : Char, d.toNat < 48 → (c == d) = false := by
    intro d hd
    rw [beq_eq_false_iff_ne]
    rintro rfl
    omega
  have hblank : Text.isBlank c = false := by
    rw [Text.isBlank, if_pos (by omega), hne ' ' (by decide), Bool.false_or,
      Bool.and_eq_false_iff]
    right
    exact decide_eq_false (by omega)
  rw [isDelimiter, hblank, hne '(' (by decide), hne ')' (by decide), hne '"' (by decide)]
  rfl

/-- What starts a word: no delimiter, and none of the marks but the colon. -/
theorem start_eq_word {c : Char} (hd : isDelimiter c = false) (hm : c = ':' ∨ c ∉ leadMarks) :
    Lexeme.start c = .word := by
  simp only [isDelimiter, Bool.or_eq_false_iff, beq_eq_false_iff_ne] at hd
  obtain ⟨⟨⟨hblank, hopen⟩, hclose⟩, hquote⟩ := hd
  have hback : ¬ c.toNat = 0x60 ∨ c = Char.ofNat 0x60 := by
    by_cases h : c.toNat = 0x60
    · right
      rw [← h, Char.ofNat_toNat]
    · exact .inl h
  rcases hm with rfl | hm
  · rfl
  · simp only [leadMarks, List.mem_cons, List.not_mem_nil, or_false, not_or] at hm
    obtain ⟨h1, h2, h3, h4, h5, h6, _⟩ := hm
    have hback' : ¬ c.toNat = 0x60 := hback.resolve_right h2
    simp [Lexeme.start, hblank, hopen, hclose, hquote, h1, hback', h3, h4, h5, h6]

/-! ## §2. One token. -/

/-- Characters up to a delimiter are one word. -/
theorem ofChars?_word {c : Char} {cs : List Char} (hc : Lexeme.start c = .word)
    (hcs : ∀ d ∈ cs, isDelimiter d = false) : Lexeme.ofChars? (c :: cs) = some .word := by
  rw [Lexeme.ofChars?, hc]
  exact Lexeme.run_stays fun d hd => by simp [Lexeme.step, hcs d hd]

/-- Behind an escaped character the string is as open as before. -/
theorem run_escape (c : Char) :
    (Lexeme.fenced .string false).run (escape c) = some (.fenced .string false) := by
  unfold escape
  split
  · rfl
  · next h =>
      rw [not_or] at h
      simp [Lexeme.step, h.1, h.2, Fence.mark]

/-- An escaped text never closes the string that it stands in. -/
theorem run_flatMap_escape (s : List Char) :
    (Lexeme.fenced .string false).run (s.flatMap escape) = some (.fenced .string false) := by
  induction s with
  | nil => rfl
  | cons c s ih =>
      rw [List.flatMap_cons, Lexeme.run_append, run_escape]
      exact ih

theorem ofChars?_quoteString (s : List Char) :
    Lexeme.ofChars? (quoteString s) = some (.fenceClosed .string) := by
  show (Lexeme.fenced .string false).run (s.flatMap escape ++ ['"']) = _
  rw [Lexeme.run_append, run_flatMap_escape]
  rfl

/-! ## §3. Integers. -/

theorem mem_intChars {n : Int} {c : Char} (h : c ∈ intChars n) : c = '-' ∨ c.isDigit = true := by
  rw [intChars, List.mem_append] at h
  rcases h with h | h
  · split at h
    · exact .inl (List.mem_singleton.1 h)
    · cases h
  · exact .inr (Nat.isDigit_of_mem_toDigits (by decide) (by decide) h)

theorem isDelimiter_of_mem_intChars {n : Int} {c : Char} (h : c ∈ intChars n) :
    isDelimiter c = false := by
  rcases mem_intChars h with rfl | h
  · decide
  · exact isDelimiter_of_isDigit h

theorem natOfDigits?_toDigits (k : Nat) : natOfDigits? (Nat.toDigits 10 k) = some k := by
  have hall : (Nat.toDigits 10 k).all Char.isDigit = true :=
    List.all_eq_true.2 fun c hc => Nat.isDigit_of_mem_toDigits (by decide) (by decide) hc
  have hne : (Nat.toDigits 10 k).isEmpty = false :=
    List.isEmpty_eq_false_iff.2 Nat.toDigits_ne_nil
  rw [natOfDigits?, hne, hall, natOfDigits_eq, Nat.ofDigitChars_ten_toDigits]
  rfl

/-- Digits have no sign of their own. -/
theorem splitSign_toDigits (k : Nat) :
    splitSign (Nat.toDigits 10 k) = (false, Nat.toDigits 10 k) := by
  have hdigit : ∀ c ∈ Nat.toDigits 10 k, c.isDigit = true :=
    fun c hc => Nat.isDigit_of_mem_toDigits (by decide) (by decide) hc
  unfold splitSign
  split
  · next h => exact absurd (hdigit '-' (by rw [h]; exact List.mem_cons_self)) (by decide)
  · next h => exact absurd (hdigit '+' (by rw [h]; exact List.mem_cons_self)) (by decide)
  · rfl

theorem intOfChars?_intChars (n : Int) : intOfChars? (intChars n) = some n := by
  unfold intChars intOfChars?
  by_cases hn : n < 0
  · have hsign : splitSign (['-'] ++ Nat.toDigits 10 n.natAbs)
        = (true, Nat.toDigits 10 n.natAbs) := rfl
    rw [if_pos hn, hsign]
    simp only [natOfDigits?_toDigits]
    show some (-(n.natAbs : Int)) = some n
    congr 1
    omega
  · rw [if_neg hn, List.nil_append, splitSign_toDigits]
    simp only [natOfDigits?_toDigits]
    show some (n.natAbs : Int) = some n
    congr 1
    omega

theorem int64OfChars?_intChars (n : Int64) : int64OfChars? (intChars n.toInt) = some n := by
  rw [int64OfChars?, intOfChars?_intChars, Option.bind_some,
    if_pos ⟨n.minValue_le_toInt, n.toInt_le⟩, Int64.ofInt_toInt]

theorem intChars_ne_nil (n : Int) : intChars n ≠ [] :=
  List.append_ne_nil_of_right_ne_nil _ Nat.toDigits_ne_nil

/-! ## §4. What a word stands for. -/

/-- The contents of a string come back. -/
theorem unescape_flatMap_escape (s : List Char) : unescape (s.flatMap escape) = s := by
  induction s with
  | nil => rfl
  | cons c s ih =>
      rw [List.flatMap_cons]
      by_cases hc : c = '"' ∨ c = '\\'
      · rw [escape, if_pos hc]
        show unescape ('\\' :: c :: s.flatMap escape) = _
        rw [unescape, ih]
      · rw [escape, if_neg hc]
        rw [not_or] at hc
        show unescape (c :: s.flatMap escape) = _
        rw [unescape, ih]
        -- the equation is for characters that are no backslash
        · intro h
          exact absurd h hc.2
        · intro d ds h
          exact absurd h hc.2

theorem ofStringChars_quoteString (s : List Char) : ofStringChars (quoteString s) = s := by
  have hlast : (s.flatMap escape ++ ['"']).getLast? = some '"' := by simp
  show unescape (if (s.flatMap escape ++ ['"']).getLast? = some '"'
    then (s.flatMap escape ++ ['"']).dropLast else s.flatMap escape ++ ['"']) = s
  rw [if_pos hlast, List.dropLast_concat, unescape_flatMap_escape]

/-- A word is told from `nil` and `t` by its first character. -/
theorem sameLetters_of_head {c : Char} {cs : List Char} {name : String}
    (h : (Text.foldLetters name).head? ≠ some c.toLower) :
    Text.sameLetters (String.ofList (c :: cs)) name = false := by
  rw [← Bool.not_eq_true, Text.sameLetters_iff]
  intro heq
  rw [← heq, Text.foldLetters, String.toList_ofList] at h
  exact h rfl

theorem toLower_of_isDigit {c : Char} (h : c.isDigit = true) : c.toLower = c := by
  simp only [Char.isDigit, Bool.and_eq_true, decide_eq_true_eq] at h
  have hupper : ¬ ('A'.val ≤ c.val ∧ c.val ≤ 'Z'.val) := by
    rintro ⟨hA, _⟩
    exact absurd (UInt32.le_trans hA h.2) (by decide)
  exact dif_neg hupper

theorem ofWord_keyword {name : String} (h : IsName name) :
    ofWord (String.ofList (':' :: name.toList)) = keyword name := by
  have hnil : Text.sameLetters (String.ofList (':' :: name.toList)) "nil" = false :=
    sameLetters_of_head (by decide)
  have ht : Text.sameLetters (String.ofList (':' :: name.toList)) "t" = false :=
    sameLetters_of_head (by decide)
  obtain ⟨c, cs, hcs⟩ := List.exists_cons_of_ne_nil h.nonempty
  rw [ofWord, hnil, ht]
  simp only [Bool.false_eq_true, if_false, String.toList_ofList, hcs]
  rw [← hcs, String.ofList_toList]

/-- A word that is no keyword is read as a number first. -/
theorem ofWord_of_not_keyword {word : String} (hnil : Text.sameLetters word "nil" = false)
    (ht : Text.sameLetters word "t" = false) (hc : word.toList.head? ≠ some ':') :
    ofWord word = match int64OfChars? word.toList with
      | some n => int n
      | none =>
        match lispFloat? word.toList with
        | some x => float x
        | none => symbol word := by
  unfold ofWord
  simp only [hnil, ht, Bool.false_eq_true, if_false]
  split
  · next h => exact absurd (by rw [h]; rfl) hc
  · rfl

theorem ofWord_int (n : Int64) : ofWord (String.ofList (intChars n.toInt)) = int n := by
  obtain ⟨c, cs, hcs⟩ := List.exists_cons_of_ne_nil (intChars_ne_nil n.toInt)
  have hc : c = '-' ∨ c.isDigit = true :=
    mem_intChars (n := n.toInt) (by rw [hcs]; exact List.mem_cons_self)
  have hlow : c.toLower = '-' ∨ c.toLower.isDigit = true := by
    rcases hc with rfl | hc
    · exact .inl (by decide)
    · exact .inr (by rw [toLower_of_isDigit hc]; exact hc)
  -- so no letter and no colon can be the first character
  have hne : ∀ d : Char, d ≠ '-' → d.isDigit = false → some d ≠ some c.toLower := by
    intro d hminus hdigit h
    cases h
    rcases hlow with h | h
    · exact hminus h
    · rw [hdigit] at h
      cases h
  have hhead : (intChars n.toInt).head? ≠ some ':' := by
    rw [hcs]
    rintro ⟨⟩
    rcases hc with h | h <;> exact absurd h (by decide)
  rw [ofWord_of_not_keyword, String.toList_ofList, int64OfChars?_intChars]
  · rw [hcs]
    exact sameLetters_of_head (hne 'n' (by decide) (by decide))
  · rw [hcs]
    exact sameLetters_of_head (hne 't' (by decide) (by decide))
  · rw [String.toList_ofList]
    exact hhead

theorem ofWord_symbol {name : String} (h : IsSymbolName name) : ofWord name = symbol name := by
  have hhead : name.toList.head? ≠ some ':' := by
    intro hc
    exact h.unmarked ':' hc (by decide)
  rw [ofWord_of_not_keyword h.not_nil h.not_t hhead, h.not_int, h.not_float]

/-! ## §5. The token of an atom. -/

/-- The state in which the text of an atom ends. -/
def atomLexeme : Value → Lexeme
  | str _ => .fenceClosed .string
  | _ => .word

/-- The text of an atom with the kind that its token has. -/
def atomPiece (v : Value) : Piece := ⟨v.atomLexeme.kind v.encode, v.encode⟩

theorem atomPiece_word {v : Value} (h : v.atomLexeme = .word) :
    v.atomPiece = ⟨.ofWord v.encode, v.encode⟩ := by
  rw [atomPiece, h, Lexeme.kind]

theorem ofChars?_name {name : String} (h : IsName name)
    (hm : ∀ c ∈ name.toList.head?, c ∉ leadMarks) :
    Lexeme.ofChars? name.toList = some .word := by
  obtain ⟨c, cs, hcs⟩ := List.exists_cons_of_ne_nil h.nonempty
  have hwhole := h.whole
  rw [hcs] at hm hwhole ⊢
  exact ofChars?_word
    (start_eq_word (hwhole c List.mem_cons_self) (.inr (hm c rfl)))
    (fun d hd => hwhole d (List.mem_cons_of_mem c hd))

theorem leadMarks_not_isDigit : ∀ c ∈ leadMarks, ¬ c.isDigit = true := by
  have hall : leadMarks.all (fun c => !c.isDigit) = true := by decide
  intro c hc
  simpa using List.all_eq_true.1 hall c hc

/-- **The text of an atom is one token.** -/
theorem ofChars?_atom {v : Value} (hsafe : v.isWireSafe = true) (hatom : v.depth = 0) :
    Lexeme.ofChars? v.chars = some v.atomLexeme := by
  cases v with
  | nil => decide
  | t => decide
  | int n =>
      -- neither a sign nor a digit is one of the marks that start something else
      obtain ⟨c, cs, hcs⟩ := List.exists_cons_of_ne_nil (intChars_ne_nil n.toInt)
      have hmem : ∀ d ∈ c :: cs, d ∈ intChars n.toInt := by rw [hcs]; exact fun d hd => hd
      have hc : c ∉ leadMarks := by
        rcases mem_intChars (hmem c List.mem_cons_self) with rfl | h
        · decide
        · exact fun hlead => absurd h (leadMarks_not_isDigit c hlead)
      rw [chars, hcs]
      exact ofChars?_word
        (start_eq_word (isDelimiter_of_mem_intChars (hmem c List.mem_cons_self)) (.inr hc))
        (fun d hd => isDelimiter_of_mem_intChars (hmem d (List.mem_cons_of_mem c hd)))
  | float x => cases hsafe
  | str s => exact ofChars?_quoteString s.toList
  | symbol name =>
      have h : IsSymbolName name := of_decide_eq_true hsafe
      exact ofChars?_name h.toIsName h.unmarked
  | keyword name =>
      have h : IsName name := of_decide_eq_true hsafe
      exact ofChars?_word rfl h.whole
  | list vs => cases hatom
  | record fs => cases hatom

/-- Every delimiter ends it. -/
theorem step_atomLexeme {v : Value} {d : Char} (hd : isDelimiter d = true) :
    v.atomLexeme.step d = none := by
  cases v <;> simp [atomLexeme, Lexeme.step, hd]

theorem isAtomic_atomPiece (v : Value) : v.atomPiece.kind.isAtomic = true := by
  have hword : v.atomLexeme = .word → v.atomPiece.kind.isAtomic = true := by
    intro h
    rw [atomPiece_word h]
    exact Kind.isAtomic_ofWord v.encode
  cases v with
  | str s => rfl
  | _ => exact hword rfl

/-- A token with the kind of a word stands for what its text says. -/
theorem ofAtom_word {a : Atom} {word : String} (h : a.token.piece = ⟨.ofWord word, word⟩) :
    ofAtom a = ofWord word := by
  have hkind : a.kind = Kind.ofWord word := congrArg Piece.kind h
  have htext : a.text = word := congrArg Piece.text h
  have hword : ∀ k ∈ Kind.wordKinds, k ≠ .string ∧ k ≠ .unclosedString := by decide
  have hne := hword _ (Kind.ofWord_mem_wordKinds word)
  unfold ofAtom
  split
  · next hs => exact absurd (hkind.symm.trans hs) hne.1
  · next hs => exact absurd (hkind.symm.trans hs) hne.2
  · rw [htext]

/-- **The token of an atom stands for it.** -/
theorem ofAtom_atomPiece {v : Value} {a : Atom} (hsafe : v.isWireSafe = true)
    (hatom : v.depth = 0) (ha : a.token.piece = v.atomPiece) : ofAtom a = v := by
  have hword : v.atomLexeme = .word → ofAtom a = ofWord v.encode :=
    fun h => ofAtom_word (ha.trans (atomPiece_word h))
  cases v with
  | nil => rw [hword rfl, ofWord, if_pos (by decide)]
  | t => rw [hword rfl, ofWord, if_neg (by decide), if_pos (by decide)]
  | int n =>
      rw [hword rfl, encode, chars]
      exact ofWord_int n
  | float x => cases hsafe
  | str s =>
      have hkind : a.kind = .string := congrArg Piece.kind ha
      have htext : a.text = String.ofList (quoteString s.toList) := congrArg Piece.text ha
      rw [ofAtom, hkind, htext]
      simp only [String.toList_ofList, ofStringChars_quoteString, String.ofList_toList]
  | symbol name =>
      rw [hword rfl, encode, chars, String.ofList_toList]
      exact ofWord_symbol (of_decide_eq_true hsafe)
  | keyword name =>
      rw [hword rfl, encode, chars]
      exact ofWord_keyword (of_decide_eq_true hsafe)
  | list vs => cases hatom
  | record fs => cases hatom

end LispLink.Value
