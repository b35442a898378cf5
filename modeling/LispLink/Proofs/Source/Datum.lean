/-
  LispLink.Proofs.Source.Datum
  ────────────────────────────────
  **A SHARP DATUM ENDS WITH THE PAREN THAT CLOSES IT.**

  A text that starts with a sharp sign, a run and a paren starts with a sharp datum.
  How far the datum goes can be said by the tokens of its list, as if it were cut:

      #  run  ( … ) …
              ( … )          up to the partner of the first paren, or, if it has
                             none, up to the end of the text

  A backslash outside of strings counts for the datum, wherever it stands.  So the
  list is cut with a letter for each delimiter behind one (`shield`); without that
  it would not be so (`tokenize_sharp_datum_unshielded`).  Neither is it so with a
  paren in a comment, which counts for the datum and not for the tokens
  (`tokenize_sharp_datum_veiled`).
-/
import LispLink.Proofs.Source.Grammar
import LispLink.Proofs.Source.Scanning

namespace LispLink.Source

section

open Lexeme

/-! ## §1. Shielded texts. -/

/-- A text with a letter in the place of each delimiter that stands behind a backslash
outside of strings. -/
def shield (inString : Bool) : List Char → List Char
  | [] => []
  | ['\\'] => ['\\']
  | '\\' :: c :: cs => '\\' :: (if !inString && isDelimiter c then 'x' else c) :: shield inString cs
  | '"' :: cs => '"' :: shield (!inString) cs
  | c :: cs => c :: shield inString cs

/-- The mode of the scanner in a string and outside of strings. -/
def DatumMode.ofString (inString : Bool) : DatumMode := if inString then .string else .plain

@[simp] theorem length_shield (inString : Bool) (cs : List Char) :
    (shield inString cs).length = cs.length := by
  fun_induction shield inString cs <;> simp_all

/-- A text without backslashes needs no shield. -/
theorem shield_eq_self {cs : List Char} (h : '\\' ∉ cs) (inString : Bool) :
    shield inString cs = cs := by
  fun_induction shield inString cs <;> simp_all

/-- What stands for a character behind a backslash is no delimiter. -/
theorem isDelimiter_shielded (c : Char) :
    isDelimiter (if isDelimiter c then 'x' else c) = false := by
  cases hc : isDelimiter c with
  | true => exact show isDelimiter 'x' = false by decide
  | false => exact hc

/-- A backslash and the character behind it leave the scanner as it was. -/
theorem run_escape_datum (d : Nat) (inString : Bool) (c : Char) (cs : List Char) :
    (datum d (.ofString inString)).run ('\\' :: c :: cs)
      = (datum d (.ofString inString)).run cs := by
  cases inString <;> rfl

theorem step_quote_datum (d : Nat) (inString : Bool) :
    (datum d (.ofString inString)).step '"' = some (datum d (.ofString !inString)) := by
  cases inString <;> rfl

/-- Any other character may open or close a paren, or else means nothing. -/
theorem step_other_datum (d : Nat) (inString : Bool) {c : Char} (hslash : c ≠ '\\')
    (hquote : c ≠ '"') :
    (datum d (.ofString inString)).step c = some sharpClosed
      ∨ ∃ e, (datum d (.ofString inString)).step c = some (datum e (.ofString inString)) := by
  cases inString with
  | true =>
      refine .inr ⟨d, ?_⟩
      simp [step, stepDatum, DatumMode.ofString, hslash, hquote]
  | false =>
      simp only [step, stepDatum, DatumMode.ofString, beq_iff_eq, hslash, hquote, if_false,
        Bool.false_eq_true]
      split_ifs
      · exact .inr ⟨d + 1, rfl⟩
      · cases d with
        | zero => exact .inl rfl
        | succ d => exact .inr ⟨d, rfl⟩
      · exact .inr ⟨d, rfl⟩

theorem run_sharpClosed_congr {as bs : List Char} (h : as.length = bs.length) :
    sharpClosed.run as = sharpClosed.run bs := by
  cases as with
  | nil => rw [List.length_eq_zero_iff.1 h.symm]
  | cons a as =>
      obtain ⟨b, bs, rfl⟩ := List.exists_cons_of_length_eq_add_one h.symm
      rfl

theorem isShielded_sharpClosed (cs : List Char) : sharpClosed.IsShielded cs := by
  cases cs with
  | nil => trivial
  | cons c cs => exact ⟨nofun, nofun⟩

/-- **A shielded text is scanned as the text is.** -/
theorem run_take_shield (inString : Bool) (cs : List Char) :
    ∀ d n, (datum d (.ofString inString)).run ((shield inString cs).take n)
      = (datum d (.ofString inString)).run (cs.take n) := by
  fun_induction shield inString cs with
  | case1 => exact fun d n => rfl
  | case2 => exact fun d n => rfl
  | case3 inString c cs ih =>
      intro d n
      match n with
      | 0 => rfl
      | 1 => rfl
      | n + 2 =>
          simp only [List.take_succ_cons, run_escape_datum]
          exact ih d n
  | case4 inString cs ih =>
      intro d n
      cases n with
      | zero => rfl
      | succ n =>
          simp only [List.take_succ_cons, run_cons, step_quote_datum, Option.bind_some]
          exact ih d n
  | case5 inString c cs hlast hpair hquote ih =>
      intro d n
      cases n with
      | zero => rfl
      | succ n =>
          rw [List.take_succ_cons, List.take_succ_cons, run_cons, run_cons]
          have hslash := ne_backslash hlast hpair
          rcases step_other_datum d inString hslash hquote with hstep | ⟨e, hstep⟩
          · rw [hstep]
            exact run_sharpClosed_congr (by simp)
          · rw [hstep]
            exact ih e n

theorem isShielded_shield (inString : Bool) (cs : List Char) :
    ∀ d, (datum d (.ofString inString)).IsShielded (shield inString cs) := by
  have hplain : ∀ (b : Bool) d e, datum d (.ofString b) ≠ datum e .escaped := by
    intro b d e
    cases b <;> exact nofun
  fun_induction shield inString cs with
  | case1 => exact fun d => trivial
  | case2 =>
      intro d
      exact ⟨fun e h => absurd h (hplain _ d e), fun q _ => trivial⟩
  | case3 inString c cs ih =>
      intro d
      refine ⟨fun e h => absurd h (hplain _ d e), ?_⟩
      cases inString with
      | true =>
          rintro q ⟨⟩
          refine ⟨nofun, ?_⟩
          rintro q ⟨⟩
          exact ih d
      | false =>
          rintro q ⟨⟩
          refine ⟨fun _ _ => isDelimiter_shielded c, ?_⟩
          rintro q ⟨⟩
          exact ih d
  | case4 inString cs ih =>
      intro d
      refine ⟨fun e h => absurd h (hplain _ d e), ?_⟩
      rw [step_quote_datum]
      rintro q ⟨⟩
      exact ih d
  | case5 inString c cs hlast hpair hquote ih =>
      intro d
      refine ⟨fun e h => absurd h (hplain _ d e), ?_⟩
      rcases step_other_datum d inString (ne_backslash hlast hpair) hquote with hstep | ⟨e, hstep⟩
      · rw [hstep]
        rintro q ⟨⟩
        exact isShielded_sharpClosed _
      · rw [hstep]
        rintro q ⟨⟩
        exact ih e

/-! ## §2. The first paren of a text. -/

/-- Whether the first `n` tokens go up to the paren that closes the first one, or all of
the tokens do if none does. -/
inductive Encloses (ts : List Token) : Nat → Prop
  | closed {k : Nat} (h : ArePartners ts 0 k) : Encloses ts (k + 1)
  | unclosed (h : StaysOpen ts 0) : Encloses ts ts.length

theorem closed_or_isOpenUpTo {ts : List Token} {t : Token} (ht : ts[0]? = some t)
    (hkind : t.kind = .openParen) :
    ∀ n < ts.length, (∃ k, ArePartners ts 0 k) ∨ IsOpenUpTo ts (n + 1) 0 0 := by
  -- token by token: one that closes the paren leaves nothing open
  intro n
  induction n with
  | zero => exact fun _ => .inr (.new ht hkind rfl)
  | succ n ih =>
      intro hn
      rcases ih (Nat.lt_of_succ_lt hn) with hclosed | hopen
      · exact .inl hclosed
      have hu : ts[n + 1]? = some ts[n + 1] := List.getElem?_eq_getElem hn
      by_cases hnest : nesting (ts.take (n + 1 + 1)) = 0
      · have hinside : 0 < nesting (ts.take (n + 1)) :=
          hopen.inside (n + 1) (Nat.succ_pos n) (Nat.le_refl _)
        have hclose : ts[n + 1].kind = .closeParen := by
          rw [nesting_take_succ hu] at hnest
          revert hnest
          cases ts[n + 1].kind <;> intro hnest <;>
            first | rfl | (simp only [Kind.nest] at hnest; omega)
        exact .inl ⟨n + 1, hopen.arePartners (Nat.succ_pos n) hu hclose hnest⟩
      · exact .inr (hopen.succ (Nat.pos_of_ne_zero hnest))

instance (ts : List Token) (i j : Nat) : Decidable (ArePartners ts i j) :=
  decidable_of_iff
    ((∃ t ∈ ts[i]?, t.kind = .openParen) ∧ (∃ t ∈ ts[j]?, t.kind = .closeParen) ∧ i < j
      ∧ (∀ k ≤ j, i < k → nesting (ts.take i) < nesting (ts.take k))
      ∧ nesting (ts.take (j + 1)) = nesting (ts.take i))
    ⟨fun ⟨hi, hj, hlt, hin, hout⟩ => ⟨hi, hj, hlt, fun k hik hkj => hin k hkj hik, hout⟩,
      fun h => ⟨h.opens, h.closes, h.lt, fun k hkj hik => h.inside k hik hkj, h.outside⟩⟩

/-- **A paren has a partner or stays open.** -/
theorem exists_encloses {ts : List Token} {t : Token} (ht : ts[0]? = some t)
    (hkind : t.kind = .openParen) : ∃ n, Encloses ts n := by
  have hlen : 0 < ts.length := (List.getElem?_eq_some_iff.1 ht).1
  have hlast : ts.length - 1 + 1 = ts.length := Nat.sub_add_cancel hlen
  rcases closed_or_isOpenUpTo ht hkind (ts.length - 1) (by omega) with ⟨k, hk⟩ | hopen
  · exact ⟨k + 1, .closed hk⟩
  · rw [hlast] at hopen
    exact ⟨ts.length, .unclosed hopen.staysOpen⟩

/-! ## §3. Sharp data. -/

/-- Whether a text is a sharp sign, a run, a paren and the rest, where the run does not make
a block comment or a character of it. -/
structure IsDatum (text : String) (run rest : List Char) : Prop where
  split : text.toList = '#' :: (run ++ '(' :: rest)
  letters : ∀ c ∈ run, isDelimiter c = false
  lead : ∀ c ∈ run.head?, c ≠ '|' ∧ c ≠ '\\'

/-- Whether the first token of such a text is sharp and stops where the first `n` of the
tokens `ts` do, which are those of the list. -/
def StopsWith (text : String) (run : List Char) (ts : List Token) (n : Nat) : Prop :=
  ∃ first more, tokenize text = first :: more ∧ first.kind = .sharp
    ∧ first.text.toList = text.toList.take (1 + run.length + (textOf (ts.take n)).length)

/-- A dispatch run and a paren begin the list of a datum. -/
theorem IsDatum.run_sharp {text : String} {run rest : List Char} (h : IsDatum text run rest) :
    sharp.run (run ++ ['(']) = some (datum 0 .plain) := by
  obtain ⟨_, hrun, hlead⟩ := h
  cases run with
  | nil => rfl
  | cons c cs =>
      obtain ⟨hbar, hslash⟩ := hlead c rfl
      have hfirst : sharp.step c = some sharpRun := by
        rw [step, if_neg (by simpa using hbar), if_neg (by simpa using hslash)]
        exact stepRun_of_not_isDelimiter (hrun c List.mem_cons_self)
      have hrest : sharpRun.run cs = some sharpRun :=
        run_stays fun d hd =>
          stepRun_of_not_isDelimiter (hrun d (List.mem_cons_of_mem c hd))
      rw [List.cons_append, run_cons, hfirst, Option.bind_some, run_append, hrest]
      rfl

theorem nesting_take_cons {t : Token} {us : List Token} (hkind : t.kind = .openParen) (k : Nat) :
    nesting ((t :: us).take (k + 1)) = nestingFrom 1 (us.take k) := by
  rw [List.take_succ_cons]
  show nestingFrom (t.kind.nest 0) _ = _
  rw [hkind]
  rfl

section

variable {text : String} {t : Token} {us : List Token}

/-- **The scanner stops behind the partner of the first paren.** -/
theorem run_datum_closed (h : tokenize text = t :: us) (hkind : t.kind = .openParen)
    (hshielded : (datum 0 .plain).IsShielded (textOf us)) {k : Nat}
    (hbare : AreBare (us.take (k + 1))) (hpartner : ArePartners (t :: us) 0 (k + 1)) :
    (datum 0 .plain).run (textOf (us.take (k + 1))) = some sharpClosed := by
  obtain ⟨u, hu, hclose⟩ := hpartner.closes
  have hu' : us[k]? = some u := hu
  have htake : us.take (k + 1) = us.take k ++ [u] := by
    rw [List.take_add_one, hu']
    rfl
  have hsplit : us = us.take k ++ u :: us.drop (k + 1) := by
    conv_lhs => rw [← List.take_append_drop (k + 1) us, htake, List.append_assoc]
    rfl
  have hbefore : tokenize text = (t :: us.take k) ++ u :: us.drop (k + 1) := by
    rw [h, List.cons_append, ← hsplit]
  have hbare' : AreBare (us.take k) := fun v hv =>
    hbare v (by rw [htake]; exact List.mem_append_left _ hv)
  have hopen : ∀ j ≤ (us.take k).length, 0 < nestingFrom 1 ((us.take k).take j) := by
    intro j hj
    have hjk : j ≤ k := Nat.le_trans hj (List.length_take_le k us)
    rw [List.take_take, Nat.min_eq_left hjk, ← nesting_take_cons hkind]
    exact hpartner.inside (j + 1) (Nat.succ_pos j) (Nat.succ_le_succ hjk)
  obtain ⟨e, m, hrun, hplain⟩ :=
    run_datum_tokens [t] hbefore hbare' (by rwa [← hsplit]) hopen
  obtain ⟨hdepth, rfl⟩ := hplain (List.cons_ne_nil _ _)
  -- nothing but the first paren is open when its partner comes
  have hzero : e = 0 := by
    have hnest := hpartner.outside
    rw [nesting_take_succ hu, nesting_take_cons hkind, ← hdepth, hclose] at hnest
    exact hnest
  have htext : u.text = ")" := (spellsParen_of_mem_tokenize (h ▸ List.mem_of_getElem? hu)).2 hclose
  rw [htake, textOf_append, textOf_cons, htext, textOf_nil, run_append, hrun, hzero]
  rfl

/-- **The scanner does not stop at all** if the first paren stays open. -/
theorem run_datum_unclosed (h : tokenize text = t :: us) (hkind : t.kind = .openParen)
    (hshielded : (datum 0 .plain).IsShielded (textOf us)) (hbare : AreBare us)
    (hstays : StaysOpen (t :: us) 0) :
    ∃ e m, (datum 0 .plain).run (textOf us) = some (datum e m) := by
  have hwhole : tokenize text = [t] ++ (us ++ []) := by
    rw [h, List.append_nil]
    rfl
  have hopen : ∀ k ≤ us.length, 0 < nestingFrom 1 (us.take k) := by
    intro k hk
    rw [← nesting_take_cons hkind]
    exact hstays.2 (k + 1) (Nat.succ_pos k) (Nat.succ_le_succ hk)
  obtain ⟨e, m, hrun, _⟩ := run_datum_tokens [t] hwhole hbare (by rwa [List.append_nil]) hopen
  exact ⟨e, m, hrun⟩

end

/-- The first token goes up to where the scanner stops. -/
theorem IsDatum.exists_first {text : String} {run rest : List Char} (h : IsDatum text run rest)
    {n : Nat} {q : Lexeme} (hq : (datum 0 .plain).run (rest.take n) = some q)
    (hbreaks : ∀ c ∈ (rest.drop n).head?, q.step c = none) :
    ∃ first more, tokenize text = first :: more ∧ first.EndsIn q
      ∧ first.text.toList = text.toList.take (1 + run.length + (1 + n)) := by
  have hpre : ofChars? ('#' :: (run ++ ['(']) ++ rest.take n) = some q := by
    show sharp.run (run ++ ['('] ++ rest.take n) = some q
    rw [run_append, h.run_sharp]
    exact hq
  have hsplit : text.toList = ('#' :: (run ++ ['(']) ++ rest.take n) ++ rest.drop n := by
    rw [h.split]
    simp
  obtain ⟨first, more, hfirst, htext, hends⟩ := tokenize_first hsplit hpre hbreaks
  refine ⟨first, more, hfirst, hends, ?_⟩
  have hlength : 1 + run.length + (1 + n) = ('#' :: (run ++ ['('])).length + n := by
    rw [List.length_cons, List.length_append, List.length_singleton]
    omega
  rw [htext, hsplit, List.append_assoc, List.take_append_drop, hlength,
    List.take_length_add_append]

/-- What the first tokens of the shielded list take from it, the scanner takes from the list. -/
theorem IsDatum.stopsWith {text : String} {run rest : List Char} (h : IsDatum text run rest)
    {t : Token} {us : List Token} (hopen : t.text.toList = ['('])
    (hus : textOf us = shield false rest) {k : Nat} {q : Lexeme}
    (hq : (datum 0 .plain).run (textOf (us.take k)) = some q) (hkind : ∀ s, q.kind s = .sharp)
    (hend : q = sharpClosed ∨ us.length ≤ k) : StopsWith text run (t :: us) (k + 1) := by
  have hsplit : shield false rest = textOf (us.take k) ++ textOf (us.drop k) := by
    rw [← hus, ← textOf_append, List.take_append_drop]
  have hscan : (datum 0 .plain).run (rest.take (textOf (us.take k)).length) = some q := by
    have hsame := run_take_shield false rest 0 (textOf (us.take k)).length
    rw [hsplit, List.take_left] at hsame
    exact hsame.symm.trans hq
  have hbreaks : ∀ c ∈ (rest.drop (textOf (us.take k)).length).head?, q.step c = none := by
    rcases hend with rfl | hlen
    · exact fun _ _ => rfl
    · rw [List.take_of_length_le hlen, hus, length_shield, List.drop_length]
      exact nofun
  obtain ⟨first, more, hfirst, hends, htext⟩ := h.exists_first hscan hbreaks
  refine ⟨first, more, hfirst, hends.kind.trans (hkind _), ?_⟩
  rw [List.take_succ_cons, textOf_cons, hopen, List.length_append, List.length_singleton]
  exact htext

/-- **A sharp datum ends where the tokens of its list say.**  Let the list be cut into tokens
with a letter for each delimiter behind a backslash outside of strings.  Then the first
token stops with the paren that closes the list, and with the text if none does, as long as
no comment or barred symbol in the list has a paren or a double quote in it. -/
theorem tokenize_sharp_datum {text : String} {run rest : List Char} (h : IsDatum text run rest) :
    let ts := tokenize (String.ofList ('(' :: shield false rest))
    (∃ n, Encloses ts n) ∧ ∀ n, Encloses ts n → AreBare (ts.take n) → StopsWith text run ts n := by
  intro ts
  have hlist : (String.ofList ('(' :: shield false rest)).toList = ['('] ++ shield false rest :=
    String.toList_ofList
  have hparen : ofChars? ['('] = some openParen := rfl
  obtain ⟨t, us, hts, hopen, hends⟩ := tokenize_first hlist hparen fun _ _ => rfl
  have hkind : t.kind = .openParen := hends.kind
  have hus : textOf us = shield false rest := by
    have hall := (textOf_tokenize (String.ofList ('(' :: shield false rest))).1
    rw [hts, hlist, textOf_cons, hopen] at hall
    exact List.append_cancel_left hall
  have hshielded : (datum 0 .plain).IsShielded (textOf us) := by
    rw [hus]
    exact isShielded_shield false rest 0
  rw [show ts = t :: us from hts]
  refine ⟨exists_encloses rfl hkind, ?_⟩
  intro n hn hbare
  cases hn with
  | @closed k hpartner =>
      obtain ⟨k, rfl⟩ := Nat.exists_eq_succ_of_ne_zero (Nat.pos_iff_ne_zero.1 hpartner.lt)
      have hstops := run_datum_closed hts hkind hshielded
        (fun u hu => hbare u (List.mem_cons_of_mem t hu)) hpartner
      exact h.stopsWith hopen hus hstops (fun _ => rfl) (.inl rfl)
  | unclosed hstays =>
      rw [List.take_length] at hbare
      obtain ⟨e, m, hgoes⟩ := run_datum_unclosed hts hkind hshielded
        (fun u hu => hbare u (List.mem_cons_of_mem t hu)) hstays
      rw [← us.take_length] at hgoes
      exact h.stopsWith hopen hus hgoes (fun _ => rfl) (.inr (Nat.le_refl _))

/-- Parens in a string, behind backslashes and in a datum of its own, and backslashes in a
comment and in a barred symbol. -/
theorem tokenize_sharp_datum_nested :
    let text := "#s(a \"(\" #\\) \\( #(b) |c\\d| ; e\\f\n) g"
    let rest := "a \"(\" #\\) \\( #(b) |c\\d| ; e\\f\n) g".toList
    let ts := tokenize (String.ofList ('(' :: shield false rest))
    IsDatum text ['s'] rest ∧ ArePartners ts 0 15 ∧ AreBare (ts.take 16)
      ∧ ∃ first more, tokenize text = first :: more ∧ first.kind = .sharp
        ∧ first.text.toList = "#s(a \"(\" #\\) \\( #(b) |c\\d| ; e\\f\n)".toList := by
  intro text rest ts
  have hdatum : IsDatum text ['s'] rest := by
    refine ⟨by decide, List.forall_mem_singleton.2 (by decide), ?_⟩
    rintro c ⟨⟩
    decide
  have hpartners : ArePartners ts 0 15 := by decide
  have hbare : AreBare (ts.take 16) := by decide
  obtain ⟨first, more, hfirst, hkind, htext⟩ :=
    (tokenize_sharp_datum hdatum).2 16 (.closed hpartners) hbare
  refine ⟨hdatum, hpartners, hbare, first, more, hfirst, hkind, htext.trans ?_⟩
  decide

/-- **Without a shield it is not so**: to the scanner of a datum a paren behind a backslash
is no paren, and to the tokens of the list it is one. -/
theorem tokenize_sharp_datum_unshielded :
    ¬ ∀ text run rest, IsDatum text run rest →
      ∀ n, Encloses (tokenize (String.ofList ('(' :: rest))) n →
        StopsWith text run (tokenize (String.ofList ('(' :: rest))) n := by
  intro h
  have hdatum : IsDatum "#(a\\) b)" [] "a\\) b)".toList := ⟨by decide, nofun, nofun⟩
  have hpartners : ArePartners (tokenize (String.ofList ('(' :: "a\\) b)".toList))) 0 2 := by
    decide
  obtain ⟨first, more, hfirst, -, htext⟩ := h _ _ _ hdatum 3 (.closed hpartners)
  have hwhole : (tokenize "#(a\\) b)").head?.map (·.text) = some "#(a\\) b)" := by decide
  rw [hfirst] at hwhole
  obtain hfull : first.text = "#(a\\) b)" := Option.some_inj.1 hwhole
  rw [hfull] at htext
  revert htext
  decide

/-- **With a paren in a comment it is not so** either: it closes the datum, and to the tokens
of the list it is part of the comment. -/
theorem tokenize_sharp_datum_veiled :
    ¬ ∀ text run rest, IsDatum text run rest →
      let ts := tokenize (String.ofList ('(' :: shield false rest))
      ∀ n, Encloses ts n → StopsWith text run ts n := by
  intro h
  have hdatum : IsDatum "#(a ; )\n b)" [] "a ; )\n b)".toList := ⟨by decide, nofun, nofun⟩
  have hshield : shield false "a ; )\n b)".toList = "a ; )\n b)".toList :=
    shield_eq_self (by decide) false
  have hpartners : ArePartners (tokenize (String.ofList ('(' :: "a ; )\n b)".toList))) 0 6 := by
    decide
  have hstops := h _ _ _ hdatum
  rw [hshield] at hstops
  obtain ⟨first, more, hfirst, -, htext⟩ := hstops 7 (.closed hpartners)
  have hcut : (tokenize "#(a ; )\n b)").head?.map (·.text) = some "#(a ; )" := by decide
  rw [hfirst] at hcut
  obtain hshort : first.text = "#(a ; )" := Option.some_inj.1 hcut
  rw [hshort] at htext
  revert htext
  decide

end

end LispLink.Source
