/-
  LispLink.Proofs.Source.Lossless
  ────────────────────────────────
  **TOKENS ARE THE TEXT, PIECE BY PIECE.**

  A pass keeps every character in the token in progress, so the texts of the
  tokens in a row are the text, and no token is empty:

      textOf (tokens of cs)  =  cs

  The place of a token is said by the characters alone.  A place is the number
  of line feeds in front of it and the number of characters since the last one
  (`Position.behind`), and this is where counting character by character leads.
-/
import LispLink.Proofs.Source.Lexing
import Mathlib.Data.List.Induction

namespace LispLink.Source

/-! ## §1. Places by their characters. -/

namespace Position

/-- The place behind a text: the number of its line feeds, and the number of
characters behind the last of them. -/
def behind (cs : List Char) : Position :=
  ⟨cs.count '\n', (cs.reverse.takeWhile (· ≠ '\n')).length⟩

theorem behind_concat (cs : List Char) (c : Char) :
    behind (cs ++ [c]) = (behind cs).after c := by
  unfold behind after
  by_cases hc : c = '\n'
  · simp [hc]
  · simp [hc]

/-- **Counting from the start of a text ends where the text does.** -/
theorem afterAll_origin (cs : List Char) : origin.afterAll cs = behind cs := by
  -- the last character decides whether the line goes on
  induction cs using List.reverseRecOn with
  | nil => rfl
  | append_singleton cs c ih =>
      rw [afterAll_append, ih, behind_concat]
      rfl

end Position

/-! ## §2. The characters of tokens. -/

/-- The characters of tokens in a row. -/
def textOf (ts : List Token) : List Char := ts.flatMap fun t => t.text.toList

@[simp] theorem textOf_nil : textOf [] = [] := rfl

@[simp] theorem textOf_cons (t : Token) (ts : List Token) :
    textOf (t :: ts) = t.text.toList ++ textOf ts := List.flatMap_cons

@[simp] theorem textOf_append (as bs : List Token) :
    textOf (as ++ bs) = textOf as ++ textOf bs := List.flatMap_append

theorem toList_join_text (ts : List Token) :
    (String.join (ts.map Token.text)).toList = textOf ts := by
  rw [String.toList_join, List.flatMap_map]
  rfl

/-- Whether tokens have at least a character each. -/
def AreNonempty (ts : List Token) : Prop := ∀ t ∈ ts, t.text.toList ≠ []

theorem textOf_ne_nil {ts : List Token} (h : AreNonempty ts) (hts : ts ≠ []) : textOf ts ≠ [] := by
  obtain ⟨t, ts, rfl⟩ := List.exists_cons_of_ne_nil hts
  rw [textOf_cons]
  exact List.append_ne_nil_of_left_ne_nil (h t List.mem_cons_self) _

/-- There are no more tokens than characters. -/
theorem length_le_textOf {ts : List Token} (h : AreNonempty ts) :
    ts.length ≤ (textOf ts).length := by
  induction ts with
  | nil => exact Nat.le_refl 0
  | cons t ts ih =>
      have ht : 0 < t.text.toList.length := List.length_pos_iff.2 (h t List.mem_cons_self)
      have hts := ih fun u hu => h u (List.mem_cons_of_mem t hu)
      rw [textOf_cons, List.length_append, List.length_cons]
      omega

/-! ## §3. One character more. -/

namespace Lexing

/-- What one more character does to the tokens: it is a token of its own behind
them, or the last token grows by it. -/
theorem tokens_push (s : Lexing) (c : Char) :
    (s.BreaksAt c ∧ ∃ new : Token, new.text.toList = [c]
        ∧ (s.push c).tokens = s.tokens ++ [new])
      ∨ ∃ before last grown, s.tokens = before ++ [last]
        ∧ (s.push c).tokens = before ++ [grown]
        ∧ grown.text.toList = last.text.toList ++ [c] := by
  obtain ⟨done, current⟩ := s
  cases current with
  | none =>
      refine .inl ⟨nofun, (OpenToken.start1 .origin c).close, String.toList_singleton c, ?_⟩
      simp [push, tokens]
  | some t =>
      cases hs : t.lexeme.step c with
      | none =>
          refine .inl ⟨?_, (OpenToken.start1 t.stop c).close, String.toList_singleton c, ?_⟩
          · rintro u ⟨⟩
            exact hs
          · simp [push, hs, tokens]
      | some q =>
          refine .inr ⟨done.toList, t.close, (t.extend q c).close, ?_, ?_, ?_⟩
          · simp [tokens]
          · simp [push, hs, tokens]
          · exact String.toList_push c

theorem textOf_push (s : Lexing) (c : Char) :
    textOf (s.push c).tokens = textOf s.tokens ++ [c] := by
  rcases tokens_push s c with
    ⟨_, new, hnew, htokens⟩ | ⟨before, last, grown, hlast, htokens, hgrown⟩
  · simp [htokens, hnew]
  · simp [htokens, hlast, hgrown]

theorem areNonempty_push {s : Lexing} (h : AreNonempty s.tokens) (c : Char) :
    AreNonempty (s.push c).tokens := by
  rcases tokens_push s c with
    ⟨_, new, hnew, htokens⟩ | ⟨before, last, grown, hlast, htokens, hgrown⟩
  · rw [htokens]
    intro t ht
    rcases List.mem_append.1 ht with ht | ht
    · exact h t ht
    · rw [List.mem_singleton.1 ht, hnew]
      exact List.cons_ne_nil _ _
  · rw [htokens]
    rw [hlast] at h
    intro t ht
    rcases List.mem_append.1 ht with ht | ht
    · exact h t (List.mem_append_left _ ht)
    · rw [List.mem_singleton.1 ht, hgrown]
      exact List.append_ne_nil_of_right_ne_nil _ (List.cons_ne_nil c [])

/-- **A pass keeps every character**, and no token without one. -/
theorem textOf_pushAll (cs : List Char) :
    textOf (begin.pushAll cs).tokens = cs ∧ AreNonempty (begin.pushAll cs).tokens := by
  induction cs using List.reverseRecOn with
  | nil => exact ⟨rfl, nofun⟩
  | append_singleton cs c ih =>
      rw [pushAll_append, pushAll_cons, pushAll_nil, textOf_push, ih.1]
      exact ⟨rfl, areNonempty_push ih.2 c⟩

end Lexing

/-! ## §4. Tokens in their places. -/

/-- Tokens without a gap stop where their characters do. -/
theorem stopFrom_of_placed {p : Position} {ts : List Token} (h : Placed p ts) :
    stopFrom p ts = p.afterAll (textOf ts) := by
  induction ts generalizing p with
  | nil => rfl
  | cons t ts ih =>
      obtain ⟨_, hstop, hts⟩ := h
      rw [stopFrom_cons, ih hts, hstop, textOf_cons, Position.afterAll_append]

/-- The place of a token among others is said by the characters in front of it and
by its own. -/
theorem places_of_placed {p : Position} {before after : List Token} {t : Token}
    (h : Placed p (before ++ t :: after)) :
    t.start = p.afterAll (textOf before) ∧ t.stop = p.afterAll (textOf (before ++ [t])) := by
  obtain ⟨hbefore, hstart, hstop, _⟩ := placed_append.1 h
  rw [stopFrom_of_placed hbefore] at hstart
  refine ⟨hstart, ?_⟩
  rw [hstop, stopFrom_of_placed hbefore, textOf_append, textOf_cons, textOf_nil,
    List.append_nil, Position.afterAll_append]

/-- How tokens cover a text. -/
structure Covers (ts : List Token) (text : String) : Prop where
  /-- Every token takes at least one character, so there are not more of them. -/
  nonempty : ∀ t ∈ ts, t.text ≠ ""
  length_le : ts.length ≤ text.length
  /-- Nothing is lost, doubled or moved. -/
  join : String.join (ts.map Token.text) = text
  /-- A token starts behind the characters in front of it and stops behind its
  own. -/
  places : ∀ before t after, ts = before ++ t :: after →
    t.start = .behind (textOf before) ∧ t.stop = .behind (textOf (before ++ [t]))
  /-- The first token starts at the origin, and every other one where the one
  before it stops. -/
  first : ∀ t ∈ ts.head?, t.start = ⟨0, 0⟩
  chain : ∀ before t u after, ts = before ++ t :: u :: after → t.stop = u.start

/-- **Cutting a text into tokens loses nothing and knows where it is.** -/
theorem tokenize_covers (text : String) : Covers (tokenize text) text := by
  obtain ⟨htext, hne⟩ := Lexing.textOf_pushAll text.toList
  have hplaces : ∀ before t after, tokenize text = before ++ t :: after →
      t.start = .behind (textOf before) ∧ t.stop = .behind (textOf (before ++ [t])) := by
    intro before t after h
    have hplaced := tokenize_placed text
    rw [h] at hplaced
    rw [← Position.afterAll_origin, ← Position.afterAll_origin]
    exact places_of_placed hplaced
  constructor
  case nonempty =>
    intro t ht hempty
    exact hne t ht (by rw [hempty]; rfl)
  case length_le =>
    calc (tokenize text).length
        ≤ (textOf (tokenize text)).length := length_le_textOf hne
      _ = text.length := by
        rw [tokenize, htext]
        exact String.length_toList
  case join =>
    rw [← String.toList_inj, toList_join_text]
    exact htext
  case places => exact hplaces
  case first =>
    intro t ht
    cases hts : tokenize text with
    | nil =>
        rw [hts] at ht
        cases ht
    | cons u us =>
        rw [hts] at ht
        cases ht
        exact (hplaces [] t us hts).1
  case chain =>
    intro before t u after h
    have hsplit : before ++ t :: u :: after = (before ++ [t]) ++ u :: after := by simp
    rw [(hplaces before t (u :: after) h).2, (hplaces (before ++ [t]) u after (h.trans hsplit)).1]

/-- A string over two lines that an escape at the end of the text leaves open. -/
example : tokenize "(\n\"é\n\\" =
    [⟨.openParen, ⟨0, 0⟩, ⟨0, 1⟩, "("⟩, ⟨.whitespace, ⟨0, 1⟩, ⟨1, 0⟩, "\n"⟩,
      ⟨.unclosedString, ⟨1, 0⟩, ⟨2, 1⟩, "\"é\n\\"⟩] := by
  decide

end LispLink.Source
