/-
  LispLink.Proofs.Source.Restart
  ────────────────────────────────
  **A TEXT CAN BE CUT AGAIN FROM ANY TOKEN ON.**

  Whether a token is complete is decided by its own characters and the one behind
  them.  So a token that was followed by another stays as it is whatever is
  written behind the text, and what comes from a token on is cut as if the text
  began there, only that its places are moved (`Token.moved`):

      tokens of (as bs u)  =  as, then the tokens of (bs u), moved

  The last token alone may grow.  The proof moves a whole pass: reading a
  character and moving the pass can be done in either order (`push_moved`).
-/
import LispLink.Proofs.Source.Lossless
import Mathlib.Data.List.Basic

namespace LispLink.Source

/-! ## §1. Moved places. -/

/-- A place in a text that begins at `base` of another text: on its first line the
columns are moved, and all lines are. -/
def Position.moved (base p : Position) : Position :=
  if p.line = 0 then ⟨base.line, base.col + p.col⟩ else ⟨base.line + p.line, p.col⟩

theorem Position.moved_origin (base : Position) : base.moved .origin = base := rfl

theorem Position.moved_after (base p : Position) (c : Char) :
    base.moved (p.after c) = (base.moved p).after c := by
  unfold moved after
  by_cases hc : c = '\n'
  · -- a line feed leaves the first line, where columns are moved
    by_cases hp : p.line = 0
    · simp [hc, hp]
    · simp [hc, hp, Nat.add_assoc]
  · by_cases hp : p.line = 0
    · simp [hc, hp, Nat.add_assoc]
    · simp [hc, hp]

/-- A token of a text that begins at `base` of another text. -/
def Token.moved (base : Position) (t : Token) : Token :=
  { t with start := base.moved t.start, stop := base.moved t.stop }

/-- A token in progress of a text that begins at `base` of another text. -/
def OpenToken.moved (base : Position) (t : OpenToken) : OpenToken :=
  { t with start := base.moved t.start, stop := base.moved t.stop }

theorem OpenToken.close_moved (base : Position) (t : OpenToken) :
    (t.moved base).close = t.close.moved base := rfl

theorem OpenToken.moved_start1 (base p : Position) (c : Char) :
    (start1 p c).moved base = start1 (base.moved p) c := by
  unfold moved start1
  rw [Position.moved_after]

theorem OpenToken.moved_extend (base : Position) (t : OpenToken) (q : Lexeme) (c : Char) :
    (t.extend q c).moved base = (t.moved base).extend q c := by
  unfold moved extend
  rw [Position.moved_after]

/-! ## §2. Moved passes. -/

namespace Lexing

/-- A pass over a text that begins at `base` of another text, behind the tokens
`before`. -/
def moved (before : List Token) (base : Position) (s : Lexing) : Lexing :=
  ⟨(before ++ s.done.toList.map (Token.moved base)).toArray, s.current.map (OpenToken.moved base)⟩

theorem tokens_moved (before : List Token) (base : Position) (s : Lexing) :
    (s.moved before base).tokens = before ++ s.tokens.map (Token.moved base) := by
  obtain ⟨done, current⟩ := s
  cases current with
  | none => rfl
  | some t => simp [moved, tokens, OpenToken.close_moved]

/-- **Moving a pass that has begun and reading on can be done in either order.** -/
theorem push_moved (before : List Token) (base : Position) {s : Lexing}
    (hs : s.current ≠ none) (c : Char) :
    (s.moved before base).push c = (s.push c).moved before base := by
  obtain ⟨done, current⟩ := s
  cases current with
  | none => exact absurd rfl hs
  | some t =>
      have hlexeme : (t.moved base).lexeme = t.lexeme := rfl
      cases hstep : t.lexeme.step c with
      | some q => simp [moved, push, hlexeme, hstep, OpenToken.moved_extend]
      | none =>
          have hstop : (t.moved base).stop = base.moved t.stop := rfl
          simp [moved, push, hlexeme, hstep, hstop, OpenToken.moved_start1,
            OpenToken.close_moved]

theorem current_push (s : Lexing) (c : Char) : (s.push c).current ≠ none := by
  obtain ⟨done, current⟩ := s
  cases current with
  | none => exact Option.some_ne_none _
  | some t =>
      unfold push
      dsimp only
      cases t.lexeme.step c with
      | none => exact Option.some_ne_none _
      | some q => exact Option.some_ne_none _

theorem pushAll_moved (before : List Token) (base : Position) {s : Lexing}
    (hs : s.current ≠ none) (cs : List Char) :
    (s.moved before base).pushAll cs = (s.pushAll cs).moved before base := by
  induction cs generalizing s with
  | nil => rfl
  | cons c cs ih =>
      rw [pushAll_cons, pushAll_cons, push_moved before base hs, ih (current_push s c)]

/-- Where a character begins a token of its own, reading on is a pass of its own,
moved behind what was read. -/
theorem pushAll_of_breaksAt {s : Lexing} {c : Char} (h : s.BreaksAt c) (cs : List Char) :
    s.pushAll (c :: cs) = (begin.pushAll (c :: cs)).moved s.tokens s.stop := by
  have hpush : s.push c = (begin.push c).moved s.tokens s.stop := by
    rw [push_of_breaksAt h]
    simp [moved, begin, push, OpenToken.moved_start1, Position.moved_origin]
  rw [pushAll_cons, pushAll_cons, hpush, pushAll_moved _ _ (current_push begin c)]

/-! ## §3. The borders of tokens. -/

/-- Whether a pass over the characters of `as` has just these tokens, and the
character that `bs` start with begins a token of its own. -/
def IsBorder (as bs : List Token) : Prop :=
  (begin.pushAll (textOf as)).tokens = as
    ∧ ∀ c ∈ (textOf bs).head?, (begin.pushAll (textOf as)).BreaksAt c

/-- Only the first character behind a border matters. -/
theorem isBorder_congr {as bs bs' : List Token} (h : IsBorder as bs)
    (hhead : (textOf bs').head? = (textOf bs).head?) : IsBorder as bs' :=
  ⟨h.1, by rw [hhead]; exact h.2⟩

/-- **Between two tokens there is a border**: when the pass had read the texts of
the first ones it had these tokens, and the next character began one. -/
theorem isBorder_of_tokens (cs : List Char) :
    ∀ {as bs : List Token}, (begin.pushAll cs).tokens = as ++ bs → bs ≠ [] → IsBorder as bs := by
  -- on the text from its end: the last character is a token of its own, or it makes
  -- the last token longer, which does not concern the borders before that token
  induction cs using List.reverseRecOn with
  | nil =>
      intro as bs h hbs
      exact absurd (List.append_eq_nil_iff.1 h.symm).2 hbs
  | append_singleton cs c ih =>
      intro as bs h hbs
      obtain ⟨bs, b, rfl⟩ := (List.eq_nil_or_concat' bs).resolve_left hbs
      rw [pushAll_append, pushAll_cons, pushAll_nil, ← List.append_assoc] at h
      obtain ⟨htext, hne⟩ := textOf_pushAll cs
      rcases tokens_push (begin.pushAll cs) c with
        ⟨hbreaks, new, hnew, htokens⟩ | ⟨before, last, grown, hlast, htokens, hgrown⟩
      · obtain ⟨hsplit, hb⟩ := List.append_inj' (htokens.symm.trans h) rfl
        obtain rfl : new = b := List.singleton_inj.1 hb
        by_cases hnil : bs = []
        · -- the new token stands behind all tokens there were
          subst hnil
          rw [List.append_nil] at hsplit
          have has : textOf as = cs := by rw [← hsplit, htext]
          unfold IsBorder
          rw [has, List.nil_append, textOf_cons, textOf_nil, List.append_nil, hnew]
          refine ⟨hsplit, ?_⟩
          rintro d ⟨⟩
          exact hbreaks
        · have hbs' : AreNonempty bs := fun t ht =>
            hne t (hsplit ▸ List.mem_append_right as ht)
          refine isBorder_congr (ih hsplit hnil) ?_
          rw [textOf_append, List.head?_append_of_ne_nil _ (textOf_ne_nil hbs' hnil)]
      · obtain ⟨hsplit, hb⟩ := List.append_inj' (htokens.symm.trans h) rfl
        obtain rfl : grown = b := List.singleton_inj.1 hb
        rw [hsplit, List.append_assoc] at hlast
        have hne' : AreNonempty (bs ++ [last]) := fun t ht =>
          hne t (hlast ▸ List.mem_append_right as ht)
        have hcons : bs ++ [last] ≠ [] := List.append_ne_nil_of_right_ne_nil _ (by simp)
        have hlonger : textOf (bs ++ [grown]) = textOf (bs ++ [last]) ++ [c] := by
          simp [hgrown]
        refine isBorder_congr (ih hlast hcons) ?_
        rw [hlonger, List.head?_append_of_ne_nil _ (textOf_ne_nil hne' hcons)]

/-- **Whatever is written behind a text**, it can be cut again from any of its
tokens on, with the tokens before left as they are. -/
theorem tokens_from {cs : List Char} {as bs : List Token} {b : Token}
    (h : (begin.pushAll cs).tokens = as ++ b :: bs) (us : List Char) :
    (begin.pushAll (cs ++ us)).tokens
      = as ++ (begin.pushAll (textOf (b :: bs) ++ us)).tokens.map (Token.moved b.start) := by
  obtain ⟨htokens, hbreaks⟩ := isBorder_of_tokens cs h (List.cons_ne_nil b bs)
  obtain ⟨htext, hne⟩ := textOf_pushAll cs
  have hstart : (begin.pushAll (textOf as)).stop = b.start := by
    have hall := (isPlaced_pushAll isPlaced_begin cs).placed
    rw [h] at hall
    rw [(isPlaced_pushAll isPlaced_begin (textOf as)).stop_eq, htokens]
    exact (placed_append.1 hall).2.1.symm
  have hrest : AreNonempty (b :: bs) := fun t ht => hne t (h ▸ List.mem_append_right as ht)
  obtain ⟨d, ds, hd⟩ :=
    List.exists_cons_of_ne_nil (textOf_ne_nil hrest (List.cons_ne_nil b bs))
  have hsplit : cs = textOf as ++ d :: ds := by
    rw [← hd, ← textOf_append, ← h, htext]
  rw [hd] at hbreaks
  rw [hsplit, hd, List.append_assoc, pushAll_append, List.cons_append,
    pushAll_of_breaksAt (hbreaks d rfl), tokens_moved, htokens, hstart]

end Lexing

/-! ## §4. Texts that grow. -/

/-- **A text can be cut again from any token on.**  What is written behind a text
can only change its last token, and everything from there on is cut as if the text
began with that token; and so is what comes from any other token on. -/
theorem tokenize_append (s u : String) {ts : List Token} {t : Token}
    (h : tokenize s = ts ++ [t]) :
    tokenize (s ++ u) = ts ++ (tokenize (t.text ++ u)).map (Token.moved t.start)
      ∧ ∀ before first after, tokenize s = before ++ first :: after →
        (tokenize (String.join ((first :: after).map Token.text))).map (Token.moved first.start)
          = first :: after := by
  constructor
  · have hgrown := Lexing.tokens_from h u.toList
    rw [textOf_cons, textOf_nil, List.append_nil] at hgrown
    rw [tokenize, tokenize, String.toList_append, String.toList_append]
    exact hgrown
  · intro before first after hsplit
    have hagain := Lexing.tokens_from hsplit []
    rw [List.append_nil, List.append_nil,
      show (Lexing.begin.pushAll s.toList).tokens = _ from hsplit] at hagain
    rw [tokenize, toList_join_text]
    exact (List.append_cancel_left hagain).symm

/-- A block comment that is closed by what is written behind the text. -/
theorem tokenize_append_block_comment :
    let ts : List Token := [⟨.openParen, ⟨0, 0⟩, ⟨0, 1⟩, "("⟩, ⟨.whitespace, ⟨0, 1⟩, ⟨1, 1⟩, "\n "⟩]
    let t : Token := ⟨.unclosedBlockComment, ⟨1, 1⟩, ⟨1, 4⟩, "#||"⟩
    tokenize "(\n #||" = ts ++ [t]
      ∧ tokenize ("(\n #||" ++ "#\n|#)") = ts ++
        [⟨.blockComment, ⟨1, 1⟩, ⟨1, 5⟩, "#||#"⟩, ⟨.whitespace, ⟨1, 5⟩, ⟨2, 0⟩, "\n"⟩,
          ⟨.unclosedBar, ⟨2, 0⟩, ⟨2, 3⟩, "|#)"⟩] := by
  intro ts t
  have h : tokenize "(\n #||" = ts ++ [t] := by decide
  refine ⟨h, ?_⟩
  rw [(tokenize_append "(\n #||" "#\n|#)" h).1]
  decide

end LispLink.Source
