/-
  LispLink.Proofs.Source.Scanning
  ────────────────────────────────
  **THE LIST OF A SHARP DATUM IS SCANNED AS ITS TOKENS ARE.**

  The list of a sharp datum is part of one token.  It is not cut, but scanned for
  parens outside of strings, with a backslash for the character behind it.  Where
  the tokens of the list agree about that, the scanner is as deep behind each of
  them as they are nested:

      state of the token          the scanner, with d + 1 parens open
      nothing open                d, in plain text
      word  run  #\c              d, perhaps just behind a backslash
      string                      d, in the string
      datum with e + 1 open       d + 1 + e

  The two disagree about a delimiter behind a backslash in a word, which the tokens
  do not know (`IsShielded`), and about comments and barred symbols, which the
  scanner does not know (`AreBare`).
-/
import LispLink.Proofs.Source.Delimited
import LispLink.Proofs.Source.Leaves
import LispLink.Proofs.Source.Nesting

namespace LispLink.Source

/-! ## §1. What tokens and the scanner read alike. -/

/-- Whether a character means nothing to the scanner of a datum. -/
def IsInert (c : Char) : Prop := c ≠ '(' ∧ c ≠ ')' ∧ c ≠ '"' ∧ c ≠ '\\'

instance (c : Char) : Decidable (IsInert c) := inferInstanceAs (Decidable (_ ∧ _))

namespace Lexeme

/-- Whether no delimiter stands behind a backslash that the scanner of a datum finds outside
of strings. -/
def IsShielded (s : Lexeme) : List Char → Prop
  | [] => True
  | c :: cs =>
    (∀ d, s = datum d .escaped → isDelimiter c = false) ∧ ∀ q ∈ s.step c, q.IsShielded cs

/-- States in which a token has nothing open and no backslash has its effect. -/
def isClear : Lexeme → Bool
  | blank | fenceClosed _ | quote | backquote | comma | splice | sharp | characterName
  | sharpRun | sharpClosed | word => true
  | _ => false

/-- What the scanner of a datum, with `d + 1` parens open, makes of a token that is in
some state. -/
inductive Follows (d : Nat) : Lexeme → Nat → DatumMode → Prop
  | clear {q} (h : q.isClear = true) : Follows d q d .plain
  /-- Words and runs take a backslash for a letter. -/
  | escaped {q} (h : q = word ∨ q = sharpRun ∨ q = character) : Follows d q d .escaped
  | string : Follows d (fenced .string false) d .string
  | stringEscaped : Follows d (fenced .string true) d .stringEscaped
  | nested (e : Nat) (m : DatumMode) : Follows d (datum e m) (d + 1 + e) m

theorem isInert_of_isBlank {c : Char} (h : Text.isBlank c = true) : IsInert c := by
  refine ⟨?_, ?_, ?_, ?_⟩ <;> rintro rfl <;> revert h <;> decide

/-- The characters of the name of a character. -/
theorem isInert_of_isNamed {c : Char}
    (h : (Text.isAlphanumeric c || c == '-' || c == '_') = true) : IsInert c := by
  refine ⟨?_, ?_, ?_, ?_⟩ <;> rintro rfl <;> revert h <;> decide

section

variable {d : Nat} {c : Char}

theorem step_datum_inert (h : IsInert c) : (datum d .plain).step c = some (datum d .plain) := by
  obtain ⟨hopen, hclose, hquote, hslash⟩ := h
  simp [step, stepDatum, hopen, hclose, hquote, hslash]

/-- One more character of a word or of a run: a backslash or nothing. -/
theorem follows_letter {q : Lexeme} (hq : q = word ∨ q = sharpRun)
    (hc : isDelimiter c = false) :
    ∃ e m, (datum d .plain).step c = some (datum e m) ∧ Follows d q e m := by
  by_cases hslash : c = '\\'
  · subst hslash
    exact ⟨d, .escaped, rfl, .escaped (hq.imp_right .inl)⟩
  · simp only [isDelimiter, Bool.or_eq_false_iff, beq_eq_false_iff_ne] at hc
    have hinert : IsInert c := ⟨hc.1.1.2, hc.1.2, hc.2, hslash⟩
    refine ⟨d, .plain, step_datum_inert hinert, .clear ?_⟩
    rcases hq with rfl | rfl <;> rfl

theorem stepRun_of_not_isDelimiter (hc : isDelimiter c = false) : stepRun c = some sharpRun := by
  have hopen : c ≠ '(' := by
    rintro rfl
    exact absurd hc (by decide)
  simp [stepRun, hopen, hc]

/-- One more character of a run, or the paren of a datum inside the datum. -/
theorem follows_stepRun {q : Lexeme} (hq : stepRun c = some q) :
    ∃ e m, (datum d .plain).step c = some (datum e m) ∧ Follows d q e m := by
  unfold stepRun at hq
  split_ifs at hq with hopen hdelim
  · cases hq
    rw [eq_of_beq hopen]
    exact ⟨d + 1, .plain, rfl, .nested 0 .plain⟩
  · cases hq
    exact follows_letter (.inr rfl) (eq_false_of_ne_true hdelim)

/-- One more character of a token that has nothing open. -/
theorem follows_step_clear {q q' : Lexeme} (h : q.isClear = true) (hq : q.step c = some q')
    (hbar : q = sharp → c ≠ '|') :
    ∃ e m, (datum d .plain).step c = some (datum e m) ∧ Follows d q' e m := by
  have hinert : ∀ {q' : Lexeme}, IsInert c → q'.isClear = true →
      ∃ e m, (datum d .plain).step c = some (datum e m) ∧ Follows d q' e m :=
    fun hc hq' => ⟨d, .plain, step_datum_inert hc, .clear hq'⟩
  cases q with
  | blank =>
      rw [step] at hq
      split_ifs at hq with hblank
      cases hq
      exact hinert (isInert_of_isBlank hblank) rfl
  | comma =>
      rw [step] at hq
      split_ifs at hq with hat
      cases hq
      rw [eq_of_beq hat] at hinert ⊢
      exact hinert (by decide) rfl
  | sharp =>
      rw [step, if_neg (by simpa using hbar rfl)] at hq
      split_ifs at hq with hslash
      · cases hq
        rw [eq_of_beq hslash]
        exact ⟨d, .escaped, rfl, .escaped (.inr (.inr rfl))⟩
      · exact follows_stepRun hq
  | characterName =>
      rw [step] at hq
      split_ifs at hq with hname
      cases hq
      exact hinert (isInert_of_isNamed hname) rfl
  | sharpRun => exact follows_stepRun hq
  | word =>
      rw [step] at hq
      split_ifs at hq with hdelim
      cases hq
      exact follows_letter (.inl rfl) (eq_false_of_ne_true hdelim)
  | _ => first | exact Bool.noConfusion h | cases hq

/-- One more character of a datum inside the datum. -/
theorem follows_stepDatum (e : Nat) (m : DatumMode) :
    ∃ e' m', (datum (d + 1 + e) m).step c = some (datum e' m')
      ∧ Follows d (stepDatum e m c) e' m' := by
  cases m with
  | escaped => exact ⟨d + 1 + e, .plain, rfl, .nested e .plain⟩
  | stringEscaped => exact ⟨d + 1 + e, .string, rfl, .nested e .string⟩
  | string =>
      simp only [step, stepDatum]
      split_ifs
      · exact ⟨_, _, rfl, .nested e .stringEscaped⟩
      · exact ⟨_, _, rfl, .nested e .plain⟩
      · exact ⟨_, _, rfl, .nested e .string⟩
  | plain =>
      simp only [step, stepDatum]
      split_ifs
      · exact ⟨_, _, rfl, .nested (e + 1) .plain⟩
      · -- the paren closes the inner datum, or one inside it
        cases e with
        | zero => exact ⟨_, _, rfl, .clear rfl⟩
        | succ e => exact ⟨_, _, rfl, .nested e .plain⟩
      · exact ⟨_, _, rfl, .nested e .string⟩
      · exact ⟨_, _, rfl, .nested e .escaped⟩
      · exact ⟨_, _, rfl, .nested e .plain⟩

/-- **Character by character** the scanner stays where the token says. -/
theorem follows_step {e : Nat} {m : DatumMode} {q q' : Lexeme} (h : Follows d q e m)
    (hq : q.step c = some q') (hescaped : m = .escaped → isDelimiter c = false)
    (hbar : q = sharp → c ≠ '|') :
    ∃ e' m', (datum e m).step c = some (datum e' m') ∧ Follows d q' e' m' := by
  cases h with
  | clear h => exact follows_step_clear h hq hbar
  | escaped h =>
      refine ⟨d, .plain, rfl, ?_⟩
      rcases h with rfl | rfl | rfl
      · rw [step, hescaped rfl] at hq
        cases hq
        exact .clear rfl
      · rw [step, stepRun_of_not_isDelimiter (hescaped rfl)] at hq
        cases hq
        exact .clear rfl
      · rw [step] at hq
        split_ifs at hq <;> cases hq <;> exact .clear rfl
  | string =>
      rw [step] at hq
      split_ifs at hq with hslash hquote <;> cases hq
      · rw [eq_of_beq hslash]
        exact ⟨d, .stringEscaped, rfl, .stringEscaped⟩
      · rw [eq_of_beq hquote]
        exact ⟨d, .plain, rfl, .clear rfl⟩
      · refine ⟨d, .string, ?_, .string⟩
        rw [step, stepDatum, if_neg hslash]
        exact congrArg some (if_neg hquote)
  | stringEscaped =>
      cases hq
      exact ⟨d, .string, rfl, .string⟩
  | nested e m =>
      obtain rfl := Option.some_inj.1 hq
      exact follows_stepDatum e m

/-- The first character of a token that is no paren, no comment and no barred symbol. -/
theorem follows_start (hc : c ∉ ['(', ')', ';', '|']) :
    ∃ e m, (datum d .plain).step c = some (datum e m) ∧ Follows d (start c) e m := by
  simp only [List.mem_cons, List.not_mem_nil, or_false, not_or] at hc
  obtain ⟨hopen, hclose, hsemicolon, hbar⟩ := hc
  by_cases hquote : c = '"'
  · subst hquote
    exact ⟨d, .string, rfl, .string⟩
  by_cases hslash : c = '\\'
  · subst hslash
    exact ⟨d, .escaped, rfl, .escaped (.inl (by decide))⟩
  refine ⟨d, .plain, step_datum_inert ⟨hopen, hclose, hquote, hslash⟩, .clear ?_⟩
  unfold start
  simp only [beq_iff_eq, hopen, hclose, hquote, hbar, hsemicolon, if_false]
  split_ifs <;> rfl

theorem eq_sharp_of_start (h : start c = sharp) : c = '#' := by
  grind [start]

theorem step_ne_sharp {s q : Lexeme} (h : s.step c = some q) : q ≠ sharp := by
  unfold step stepRun stepBlock stepDatum at h
  split at h <;> grind

/-- **Along a token** the scanner goes where the token says. -/
theorem follows_run {cs : List Char} :
    ∀ {q q' : Lexeme} {e : Nat} {m : DatumMode}, Follows d q e m → q.run cs = some q' →
      (datum e m).IsShielded cs → (q = sharp → cs.head? ≠ some '|') →
      ∃ e' m', (datum e m).run cs = some (datum e' m') ∧ Follows d q' e' m' := by
  induction cs with
  | nil =>
      intro q q' e m h hrun _ _
      cases hrun
      exact ⟨e, m, rfl, h⟩
  | cons c cs ih =>
      intro q q' e m h hrun hshielded hbar
      rw [run_cons, Option.bind_eq_some_iff] at hrun
      obtain ⟨q₁, hq₁, hrun⟩ := hrun
      obtain ⟨hescaped, hrest⟩ := hshielded
      obtain ⟨e₁, m₁, hstep, h₁⟩ := follows_step h hq₁
        (fun hm => hescaped e (by rw [hm])) (fun hq hc => hbar hq (by rw [hc]; rfl))
      obtain ⟨e', m', hrun', h'⟩ := ih h₁ hrun (hrest _ hstep)
        (fun hq => absurd hq (step_ne_sharp hq₁))
      exact ⟨e', m', by rw [run_cons, hstep]; exact hrun', h'⟩

end

end Lexeme

/-! ## §2. One token. -/

/-- Whether a token is a comment or a barred symbol, which the scanner of a datum does
not tell from anything else. -/
def Token.isVeil (t : Token) : Bool :=
  match t.text.toList with
  | ';' :: _ | '|' :: _ | '#' :: '|' :: _ => true
  | _ => false

/-- Whether all comments and barred symbols are without parens and double quotes, so that
it makes no difference. -/
def AreBare (ts : List Token) : Prop :=
  ∀ t ∈ ts, t.isVeil = true → ∀ c ∈ t.text.toList, c ∉ ['(', ')', '"']

instance (ts : List Token) : Decidable (AreBare ts) :=
  decidable_of_iff
    (ts.all (fun t => !t.isVeil || t.text.toList.all fun c => decide (c ∉ ['(', ')', '"']))
      = true) <| by
    simp only [AreBare, List.all_eq_true, Bool.or_eq_true, Bool.not_eq_true', decide_eq_true_eq,
      ← Bool.not_eq_true, ← imp_iff_not_or]

namespace Lexeme

variable {d : Nat} {q : Lexeme} {cs more : List Char}

theorem isShielded_append {s : Lexeme} (h : s.IsShielded (cs ++ more)) :
    s.IsShielded cs ∧ ∀ q ∈ s.run cs, q.IsShielded more := by
  induction cs generalizing s with
  | nil =>
      refine ⟨trivial, ?_⟩
      rintro q ⟨⟩
      exact h
  | cons c cs ih =>
      obtain ⟨hescaped, hrest⟩ := h
      refine ⟨⟨hescaped, fun q hq => (ih (hrest q hq)).1⟩, ?_⟩
      intro q hq
      rw [run_cons] at hq
      obtain ⟨s', hs', hrun⟩ := Option.bind_eq_some_iff.1 hq
      exact (ih (hrest s' hs')).2 q hrun

/-- A token that something else follows has nothing open. -/
theorem eq_plain_of_follows {e : Nat} {m : DatumMode} (h : Follows d q e m)
    (hshielded : (datum e m).IsShielded more) (hmore : more ≠ [])
    (hbreaks : ∀ c ∈ more.head?, q.step c = none) : e = d ∧ m = .plain := by
  obtain ⟨c, more, rfl⟩ := List.exists_cons_of_ne_nil hmore
  have hstep : q.step c = none := hbreaks c rfl
  cases h with
  | clear => exact ⟨rfl, rfl⟩
  | escaped hq =>
      -- what stands behind the backslash would have belonged to the token
      have hc : isDelimiter c = false := hshielded.1 d rfl
      rcases hq with rfl | rfl | rfl
      · rw [step, hc] at hstep
        cases hstep
      · rw [step, stepRun_of_not_isDelimiter hc] at hstep
        cases hstep
      · rw [step] at hstep
        split_ifs at hstep
  | string => exact absurd hstep (goesOn_fenced .string false c)
  | stringEscaped => exact absurd hstep (goesOn_fenced .string true c)
  | nested e m => cases hstep

/-- States of a comment or of a barred symbol. -/
def isVeil : Lexeme → Bool
  | fenced .bar _ | fenceClosed .bar | comment | block _ _ | blockClosed => true
  | _ => false

theorem isVeil_step {s : Lexeme} {c : Char} (h : s.isVeil = true) (hq : s.step c = some q) :
    q.isVeil = true := by
  unfold isVeil at h
  split at h
  · next escaped =>
      cases escaped with
      | true =>
          cases hq
          rfl
      | false =>
          rw [step] at hq
          split_ifs at hq <;> cases hq <;> rfl
  · cases hq
  · rw [step] at hq
    split_ifs at hq
    cases hq
    rfl
  · next depth half =>
      cases hq
      unfold stepBlock
      split
      · rfl
      · split
        · cases depth <;> rfl
        · split <;> rfl
  · cases hq
  · cases h

theorem isVeil_run {s : Lexeme} (h : s.isVeil = true) (hq : s.run cs = some q) :
    q.isVeil = true := by
  induction cs generalizing s with
  | nil =>
      cases hq
      exact h
  | cons c cs ih =>
      rw [run_cons, Option.bind_eq_some_iff] at hq
      obtain ⟨s', hs', hq⟩ := hq
      exact ih (isVeil_step h hs') hq

/-- What ends a comment or a barred symbol behind a backslash is a delimiter. -/
theorem isDelimiter_of_breaks {s : Lexeme} {c : Char} (hq : s.step '\\' = some q)
    (hveil : q.isVeil = true) (hstep : q.step c = none) : isDelimiter c = true := by
  cases s with
  | fenced f escaped =>
      have hopen : ∃ b, q = fenced f b := by
        cases escaped <;> cases hq <;> exact ⟨_, rfl⟩
      obtain ⟨b, rfl⟩ := hopen
      exact absurd hstep (goesOn_fenced f b c)
  | comment =>
      cases hq
      rw [step] at hstep
      split_ifs at hstep with hline
      rw [eq_of_beq hline]
      decide
  | block depth half =>
      -- a backslash is half of nothing
      have hopen : q = block depth none := by
        cases hq
        simp [stepBlock]
      rw [hopen] at hstep
      cases hstep
  | datum depth mode => cases mode <;> cases hq <;> cases hveil
  | _ => cases hq <;> cases hveil

theorem isDelimiter_of_ends {front : List Char} {c : Char}
    (hq : ofChars? (front ++ ['\\']) = some q) (hveil : q.isVeil = true)
    (hstep : q.step c = none) : isDelimiter c = true := by
  cases front with
  | nil =>
      have hstart : start '\\' = word := by decide
      obtain rfl : word = q := hstart.symm.trans (Option.some_inj.1 hq)
      cases hveil
  | cons a front =>
      have hrun : (start a).run (front ++ ['\\']) = some q := hq
      rw [run_append, Option.bind_eq_some_iff] at hrun
      obtain ⟨s, -, hlast⟩ := hrun
      rw [run_cons, Option.bind_eq_some_iff] at hlast
      obtain ⟨q', hq', hend⟩ := hlast
      cases hend
      exact isDelimiter_of_breaks hq' hveil hstep

/-- In characters that are no parens and no double quotes the scanner gets no deeper, and
is behind a backslash only if the last one is that. -/
theorem run_datum_bare (d : Nat) {cs : List Char} (hcs : ∀ c ∈ cs, c ∉ ['(', ')', '"']) :
    ∃ m, (datum d .plain).run cs = some (datum d m)
      ∧ (m = .plain ∨ m = .escaped ∧ ∃ front, cs = front ++ ['\\']) := by
  -- on the characters from the last one back, since the last one decides
  induction cs using List.reverseRecOn with
  | nil => exact ⟨.plain, rfl, .inl rfl⟩
  | append_singleton cs c ih =>
      obtain ⟨m, hrun, hm⟩ := ih fun b hb => hcs b (List.mem_append_left _ hb)
      have hc := hcs c (List.mem_append_right _ (List.mem_singleton_self c))
      simp only [List.mem_cons, List.not_mem_nil, or_false, not_or] at hc
      obtain ⟨hopen, hclose, hquote⟩ := hc
      rw [run_append, hrun, Option.bind_some]
      rcases hm with rfl | ⟨rfl, -⟩
      · by_cases hslash : c = '\\'
        · subst hslash
          exact ⟨.escaped, rfl, .inr ⟨rfl, cs, rfl⟩⟩
        · refine ⟨.plain, ?_, .inl rfl⟩
          rw [run_cons, step_datum_inert ⟨hopen, hclose, hquote, hslash⟩]
          rfl
      · exact ⟨.plain, rfl, .inl rfl⟩

end Lexeme

theorem spellsParen_of_mem_tokenize {text : String} {t : Token} (ht : t ∈ tokenize text) :
    t.SpellsParen :=
  ⟨fun hk => congrArg Token.text ((paren_of_mem_tokenize ht).1 hk),
    fun hk => congrArg Token.text ((paren_of_mem_tokenize ht).2 hk)⟩

/-- Only a paren starts with one. -/
theorem Token.EndsIn.exists_cons {t : Token} {q : Lexeme} (h : t.EndsIn q)
    (hkind : t.kind.isParen = false) : ∃ c cs, t.text.toList = c :: cs ∧ c ≠ '(' ∧ c ≠ ')' := by
  obtain ⟨hrun, hq⟩ := h
  rw [hq] at hkind
  cases htext : t.text.toList with
  | nil =>
      rw [htext] at hrun
      cases hrun
  | cons c cs =>
      rw [htext] at hrun
      refine ⟨c, cs, rfl, ?_⟩
      -- nothing goes on behind a paren
      constructor <;> rintro rfl <;> cases cs with
      | nil =>
          cases hrun
          cases hkind
      | cons d ds => cases hrun

section

open Lexeme

theorem Token.EndsIn.isVeil {t : Token} {q : Lexeme} (h : t.EndsIn q)
    (hveil : t.isVeil = true) : q.isVeil = true := by
  have hrun := h.run
  unfold Token.isVeil at hveil
  split at hveil
  · next htext =>
      rw [htext] at hrun
      have hstart : (comment : Lexeme).isVeil = true := rfl
      exact isVeil_run hstart hrun
  · next htext =>
      rw [htext] at hrun
      have hstart : (fenced .bar false : Lexeme).isVeil = true := rfl
      exact isVeil_run hstart hrun
  · next htext =>
      rw [htext] at hrun
      have hstart : (block 0 none : Lexeme).isVeil = true := rfl
      exact isVeil_run hstart hrun
  · cases hveil

/-- A comment or a barred symbol without parens and double quotes leaves the scanner of a
datum where it was, or behind a backslash if that is the last token. -/
theorem Token.EndsIn.run_bare {t : Token} {q : Lexeme} {more : List Char} (h : t.EndsIn q)
    (d : Nat) (hveil : t.isVeil = true) (hbare : ∀ c ∈ t.text.toList, c ∉ ['(', ')', '"'])
    (hshielded : (datum d .plain).IsShielded (t.text.toList ++ more))
    (hbreaks : ∀ c ∈ more.head?, q.step c = none) :
    ∃ m, (datum d .plain).run t.text.toList = some (datum d m) ∧ (more ≠ [] → m = .plain) := by
  obtain ⟨m, hrun, hm⟩ := run_datum_bare d hbare
  refine ⟨m, hrun, fun hmore => ?_⟩
  rcases hm with rfl | ⟨rfl, front, hfront⟩
  · rfl
  -- what stands behind the backslash ends the token, so it would be a delimiter
  exfalso
  obtain ⟨c, more, rfl⟩ := List.exists_cons_of_ne_nil hmore
  have hstep : q.step c = none := hbreaks c rfl
  have hc : isDelimiter c = false := ((isShielded_append hshielded).2 _ hrun).1 d rfl
  rw [isDelimiter_of_ends (hfront ▸ h.run) (h.isVeil hveil) hstep] at hc
  cases hc

/-- A token that is no paren leaves the scanner of a datum where it was, or inside the
token if that is the last one. -/
theorem Token.EndsIn.run_other {t : Token} {q : Lexeme} {d : Nat} {more : List Char}
    (h : t.EndsIn q) (hkind : t.kind.isParen = false)
    (hbare : t.isVeil = true → ∀ c ∈ t.text.toList, c ∉ ['(', ')', '"'])
    (hshielded : (datum d .plain).IsShielded (t.text.toList ++ more))
    (hbreaks : ∀ c ∈ more.head?, q.step c = none) :
    ∃ e m, (datum d .plain).run t.text.toList = some (datum e m)
      ∧ (more ≠ [] → e = d ∧ m = .plain) := by
  by_cases hveil : t.isVeil = true
  · obtain ⟨m, hrun, hplain⟩ := h.run_bare d hveil (hbare hveil) hshielded hbreaks
    exact ⟨d, m, hrun, fun hmore => ⟨rfl, hplain hmore⟩⟩
  obtain ⟨c, cs, htext, hopen, hclose⟩ := h.exists_cons hkind
  unfold Token.isVeil at hveil
  have hrun := h.run
  rw [htext] at hveil hrun hshielded ⊢
  have hstart : c ∉ ['(', ')', ';', '|'] := by
    simp only [List.mem_cons, List.not_mem_nil, or_false, not_or]
    refine ⟨hopen, hclose, ?_, ?_⟩ <;> rintro rfl <;> exact hveil rfl
  have hbar : Lexeme.start c = sharp → cs.head? ≠ some '|' := by
    intro hsharp hhead
    obtain ⟨ds, rfl⟩ := List.head?_eq_some_iff.1 hhead
    obtain rfl : c = '#' := eq_sharp_of_start hsharp
    exact hveil rfl
  obtain ⟨e₁, m₁, hstep, h₁⟩ := follows_start (d := d) hstart
  obtain ⟨hhere, hmore⟩ := isShielded_append hshielded
  obtain ⟨e, m, hrun', hfollows⟩ := follows_run h₁ hrun (hhere.2 _ hstep) hbar
  have hwhole : (datum d .plain).run (c :: cs) = some (datum e m) := by
    rw [run_cons, hstep]
    exact hrun'
  exact ⟨e, m, hwhole, fun hne => eq_plain_of_follows hfollows (hmore _ hwhole) hne hbreaks⟩

/-- **A token takes the scanner of a datum as deep as the token is nested**, or inside the
token if that is the last one, as long as it does not close the datum. -/
theorem Token.EndsIn.run_datum {t : Token} {q : Lexeme} {d : Nat} {more : List Char}
    (h : t.EndsIn q) (hspells : t.SpellsParen) (hnest : 0 < t.kind.nest (d + 1))
    (hbare : t.isVeil = true → ∀ c ∈ t.text.toList, c ∉ ['(', ')', '"'])
    (hshielded : (datum d .plain).IsShielded (t.text.toList ++ more))
    (hbreaks : ∀ c ∈ more.head?, q.step c = none) :
    ∃ e m, (datum d .plain).run t.text.toList = some (datum e m)
      ∧ (more ≠ [] → e + 1 = t.kind.nest (d + 1) ∧ m = .plain) := by
  by_cases hparen : t.kind.isParen = true
  · rcases Kind.isParen_iff.1 hparen with hkind | hkind
    · rw [hkind, hspells.1 hkind]
      exact ⟨d + 1, .plain, rfl, fun _ => ⟨rfl, rfl⟩⟩
    · rw [hkind] at hnest
      obtain ⟨e, rfl⟩ := Nat.exists_eq_succ_of_ne_zero (Nat.pos_iff_ne_zero.1 hnest)
      rw [hkind, hspells.2 hkind]
      exact ⟨e, .plain, rfl, fun _ => ⟨rfl, rfl⟩⟩
  · have hkind : t.kind.isParen = false := eq_false_of_ne_true hparen
    obtain ⟨e, m, hrun, hplain⟩ := h.run_other hkind hbare hshielded hbreaks
    refine ⟨e, m, hrun, fun hmore => ?_⟩
    rw [Kind.nest_of_not_isParen hkind, (hplain hmore).1]
    exact ⟨rfl, (hplain hmore).2⟩

/-! ## §3. Tokens in a row. -/

theorem textOf_tokenize (text : String) :
    textOf (tokenize text) = text.toList ∧ AreNonempty (tokenize text) :=
  Lexing.textOf_pushAll text.toList

/-- **Tokens in a row** take the scanner of a datum as deep as they are nested, as long as
they do not close the datum. -/
theorem run_datum_tokens {text : String} {mid after : List Token} :
    ∀ (before : List Token) {d : Nat}, tokenize text = before ++ (mid ++ after) → AreBare mid →
      (datum d .plain).IsShielded (textOf (mid ++ after)) →
      (∀ k ≤ mid.length, 0 < nestingFrom (d + 1) (mid.take k)) →
      ∃ e m, (datum d .plain).run (textOf mid) = some (datum e m)
        ∧ (after ≠ [] → e + 1 = nestingFrom (d + 1) mid ∧ m = .plain) := by
  induction mid with
  | nil =>
      intro before d _ _ _ _
      exact ⟨d, .plain, rfl, fun _ => ⟨rfl, rfl⟩⟩
  | cons t mid ih =>
      intro before d h hbare hshielded hopen
      obtain ⟨q, hends, hbreaks⟩ := ends_of_tokenize h
      rw [List.cons_append, textOf_cons] at hshielded
      have hnest : 0 < t.kind.nest (d + 1) := hopen 1 (Nat.le_add_left 1 _)
      have hmem : t ∈ tokenize text := h ▸ List.mem_append_right _ List.mem_cons_self
      obtain ⟨e, m, hrun, hplain⟩ :=
        hends.run_datum (spellsParen_of_mem_tokenize hmem) hnest (hbare t List.mem_cons_self) hshielded hbreaks
      by_cases hmore : mid ++ after = []
      · obtain ⟨rfl, rfl⟩ := List.append_eq_nil_iff.1 hmore
        refine ⟨e, m, ?_, fun hne => absurd rfl hne⟩
        rw [textOf_cons, textOf_nil, List.append_nil]
        exact hrun
      · have hne : AreNonempty (mid ++ after) := fun u hu =>
          (textOf_tokenize text).2 u (h ▸ List.mem_append_right _ (List.mem_cons_of_mem t hu))
        obtain ⟨hdepth, rfl⟩ := hplain (textOf_ne_nil hne hmore)
        have hrest : tokenize text = (before ++ [t]) ++ (mid ++ after) := by
          rw [h, List.append_assoc]
          rfl
        have hopen' : ∀ k ≤ mid.length, 0 < nestingFrom (e + 1) (mid.take k) := by
          intro k hk
          have hk' := hopen (k + 1) (Nat.succ_le_succ hk)
          rw [List.take_succ_cons, nestingFrom_cons, ← hdepth] at hk'
          exact hk'
        obtain ⟨e', m', hrun', hplain'⟩ := ih (before ++ [t]) hrest
          (fun u hu => hbare u (List.mem_cons_of_mem t hu))
          ((isShielded_append hshielded).2 _ hrun) hopen'
        refine ⟨e', m', ?_, fun hafter => ?_⟩
        · rw [textOf_cons, run_append, hrun]
          exact hrun'
        · rw [nestingFrom_cons, ← hdepth]
          exact hplain' hafter

end

end LispLink.Source
