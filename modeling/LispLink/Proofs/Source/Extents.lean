/-
  LispLink.Proofs.Source.Extents
  ────────────────────────────────
  **HOW FAR A TOKEN REACHES.**

  The automaton runs over the text of every token without a stop, the kind of
  the token is said by the state it ends in, and the character behind the token,
  if there is one, has no step from that state:

      tokens of a text  =  before, t, after
      ofChars? t.text   =  some q        t.kind  =  q.kind t.text
      q.step c          =  none          c the first character of after

  So facts about tokens are facts about runs of the automaton.  A state that
  every character extends can only be the end of the last token.
-/
import LispLink.Proofs.Source.Restart

namespace LispLink.Source

/-! ## §1. States that go on forever. -/

/-- Whether every character belongs to a token that is in this state. -/
def Lexeme.GoesOn (s : Lexeme) : Prop := ∀ c, s.step c ≠ none

theorem Lexeme.ofChars?_concat {cs : List Char} {s : Lexeme} (h : ofChars? cs = some s)
    (c : Char) : ofChars? (cs ++ [c]) = s.step c := by
  cases cs with
  | nil => cases h
  | cons d ds =>
      have hrun : (start d).run ds = some s := h
      show (start d).run (ds ++ [c]) = s.step c
      rw [run_append, hrun, Option.bind_some, run_cons]
      cases s.step c <;> rfl

/-! ## §2. The token in progress. -/

namespace Lexing

/-- **The state of the token in progress is where its text has led.** -/
theorem ofChars?_current (cs : List Char) :
    ∀ t ∈ (begin.pushAll cs).current, Lexeme.ofChars? t.text.toList = some t.lexeme := by
  -- on the text from its end: the last character is a token of its own, or a step
  induction cs using List.reverseRecOn with
  | nil => exact nofun
  | append_singleton cs c ih =>
      rw [pushAll_append, pushAll_cons, pushAll_nil]
      generalize begin.pushAll cs = s at ih ⊢
      obtain ⟨done, current⟩ := s
      have hsingle : ∀ p, Lexeme.ofChars? (OpenToken.start1 p c).text.toList
          = some (OpenToken.start1 p c).lexeme := by
        intro p
        show Lexeme.ofChars? (String.singleton c).toList = some (Lexeme.start c)
        rw [String.toList_singleton]
        rfl
      cases current with
      | none =>
          rintro t ⟨⟩
          exact hsingle _
      | some u =>
          cases hs : u.lexeme.step c with
          | none =>
              simp only [push, hs]
              rintro t ⟨⟩
              exact hsingle _
          | some q =>
              simp only [push, hs]
              rintro t ⟨⟩
              show Lexeme.ofChars? (u.text.push c).toList = some q
              rw [String.toList_push, Lexeme.ofChars?_concat (ih u rfl), hs]

end Lexing

/-! ## §3. Complete tokens. -/

/-- Whether the automaton takes the characters of a token from its first one to
the state `q`, which says the kind of the token. -/
structure Token.EndsIn (t : Token) (q : Lexeme) : Prop where
  run : Lexeme.ofChars? t.text.toList = some q
  kind : t.kind = q.kind t.text

/-- The last token of a pass is the one in progress. -/
theorem Lexing.exists_current {s : Lexing} {as : List Token} {t : Token}
    (hcurrent : s.current = none → s.tokens = []) (h : s.tokens = as ++ [t]) :
    ∃ u ∈ s.current, u.close = t := by
  obtain ⟨done, current⟩ := s
  cases current with
  | none =>
      rw [hcurrent rfl] at h
      exact absurd h.symm (List.append_ne_nil_of_right_ne_nil as (List.cons_ne_nil t []))
  | some u =>
      refine ⟨u, rfl, ?_⟩
      simp only [tokens, Array.toList_push] at h
      exact List.singleton_inj.1 (List.append_inj' h rfl).2

/-- **Every token is a run of the automaton that the next character does not
extend.** -/
theorem ends_of_tokenize {text : String} {before after : List Token} {t : Token}
    (h : tokenize text = before ++ t :: after) :
    ∃ q, t.EndsIn q ∧ ∀ c ∈ (textOf after).head?, q.step c = none := by
  have hsplit : (Lexing.begin.pushAll text.toList).tokens = (before ++ [t]) ++ after := by
    rw [List.append_assoc]
    exact h
  -- the pass over the characters up to the end of the token
  have hborder : (Lexing.begin.pushAll (textOf (before ++ [t]))).tokens = before ++ [t]
      ∧ ∀ c ∈ (textOf after).head?,
        (Lexing.begin.pushAll (textOf (before ++ [t]))).BreaksAt c := by
    by_cases hafter : after = []
    · subst hafter
      have htext : textOf (before ++ [t]) = text.toList := by
        rw [← (Lexing.textOf_pushAll text.toList).1, hsplit, List.append_nil]
      rw [htext, hsplit, List.append_nil]
      exact ⟨rfl, nofun⟩
    · exact Lexing.isBorder_of_tokens _ hsplit hafter
  obtain ⟨htokens, hbreaks⟩ := hborder
  generalize hcs : textOf (before ++ [t]) = cs at htokens hbreaks
  have hbegin : (Lexing.begin.pushAll cs).current = none →
      (Lexing.begin.pushAll cs).tokens = [] := by
    intro hnone
    cases cs using List.reverseRecOn with
    | nil => rfl
    | append_singleton cs c =>
        rw [Lexing.pushAll_append, Lexing.pushAll_cons, Lexing.pushAll_nil] at hnone
        exact absurd hnone (Lexing.current_push _ c)
  obtain ⟨u, hu, rfl⟩ := Lexing.exists_current hbegin htokens
  exact ⟨u.lexeme, ⟨Lexing.ofChars?_current cs u hu, rfl⟩, fun c hc => hbreaks c hc u hu⟩

/-- **Where every character goes on, the text ends.** -/
theorem eq_nil_of_goesOn {text : String} {before after : List Token} {t : Token} {q : Lexeme}
    (h : tokenize text = before ++ t :: after) (hq : q.GoesOn)
    (hbreaks : ∀ c ∈ (textOf after).head?, q.step c = none) : after = [] := by
  by_contra hafter
  have hne : AreNonempty after := by
    intro u hu
    refine (Lexing.textOf_pushAll text.toList).2 u ?_
    rw [show (Lexing.begin.pushAll text.toList).tokens = _ from h]
    exact List.mem_append_right _ (List.mem_cons_of_mem t hu)
  obtain ⟨c, cs, hcs⟩ := List.exists_cons_of_ne_nil (textOf_ne_nil hne hafter)
  rw [hcs] at hbreaks
  exact hq c (hbreaks c rfl)

/-- **The first token is as long as the automaton runs**: up to a character that it
has no step for, or up to the end of the text. -/
theorem tokenize_first {text : String} {pre suf : List Char} {q : Lexeme}
    (htext : text.toList = pre ++ suf) (hq : Lexeme.ofChars? pre = some q)
    (hbreaks : ∀ c ∈ suf.head?, q.step c = none) :
    ∃ t ts, tokenize text = t :: ts ∧ t.text.toList = pre ∧ t.EndsIn q := by
  cases pre with
  | nil => cases hq
  | cons c cs =>
      let t : Token := ⟨q.kind (String.ofList (c :: cs)), .origin,
        Position.origin.afterAll (c :: cs), String.ofList (c :: cs)⟩
      have hpass := Lexing.pushAll_token (s := .begin) (c := c) nofun hq
      have htoken : (Lexing.begin.pushAll (c :: cs)).tokens = [t] := by
        rw [hpass]
        rfl
      have hends : t.text.toList = c :: cs ∧ t.EndsIn q := by
        refine ⟨String.toList_ofList, ?_, rfl⟩
        show Lexeme.ofChars? (String.ofList (c :: cs)).toList = some q
        rw [String.toList_ofList]
        exact hq
      cases suf with
      | nil =>
          refine ⟨t, [], ?_, hends⟩
          rw [tokenize, htext, List.append_nil, htoken]
      | cons d ds =>
          have hd : (Lexing.begin.pushAll (c :: cs)).BreaksAt d := by
            rw [hpass]
            rintro u ⟨⟩
            exact hbreaks d rfl
          have hfirst : tokenize text = [t] ++
              (Lexing.begin.pushAll (d :: ds)).tokens.map
                (Token.moved (Lexing.begin.pushAll (c :: cs)).stop) := by
            rw [tokenize, htext, Lexing.pushAll_append, Lexing.pushAll_of_breaksAt hd,
              Lexing.tokens_moved, htoken]
          exact ⟨t, _, hfirst, hends⟩

end LispLink.Source
