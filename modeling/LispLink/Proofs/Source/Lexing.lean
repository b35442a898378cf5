/-
  LispLink.Proofs.Source.Lexing
  ────────────────────────────────
  **A PASS OVER A TEXT, TOKEN BY TOKEN.**

  Cutting a text goes character by character.  Where a character begins a token
  of its own, all that was read before is complete, and a text that is one token
  for the automaton becomes exactly one token of the pass:

      s.pushAll cs  =  the tokens of s, and one in progress with the text cs

  So the tokens of a text are found by walking over the texts of its tokens.
  Every token starts where the one before stops, and stops where its own text
  leads (`tokenize_placed`).
-/
import LispLink.Source.Token

namespace LispLink.Source

/-! ## §1. The automaton along a text. -/

namespace Lexeme

/-- The state after more characters of the same token. -/
def run (s : Lexeme) : List Char → Option Lexeme
  | [] => some s
  | c :: cs => (s.step c).bind (·.run cs)

@[simp] theorem run_nil (s : Lexeme) : s.run [] = some s := rfl

@[simp] theorem run_cons (s : Lexeme) (c : Char) (cs : List Char) :
    s.run (c :: cs) = (s.step c).bind (·.run cs) := rfl

theorem run_append (s : Lexeme) (as bs : List Char) :
    s.run (as ++ bs) = (s.run as).bind (·.run bs) := by
  induction as generalizing s with
  | nil => rfl
  | cons a as ih =>
      rw [List.cons_append, run_cons, run_cons]
      cases s.step a with
      | none => rfl
      | some s' => exact ih s'

/-- Characters that leave the state as it is may go on forever. -/
theorem run_stays {s : Lexeme} {cs : List Char} (h : ∀ c ∈ cs, s.step c = some s) :
    s.run cs = some s := by
  induction cs with
  | nil => rfl
  | cons c cs ih =>
      rw [run_cons, h c List.mem_cons_self]
      exact ih fun d hd => h d (List.mem_cons_of_mem c hd)

/-- The state at the end of a text that is one token from its first character
on, and `none` if a token ends before the text does. -/
def ofChars? : List Char → Option Lexeme
  | [] => none
  | c :: cs => (start c).run cs

end Lexeme

/-! ## §2. One more token. -/

namespace Lexing

/-- Where the text read so far stops. -/
def stop (s : Lexing) : Position := (s.current.map OpenToken.stop).getD .origin

/-- Whether `c` begins a token of its own behind what has been read. -/
def BreaksAt (s : Lexing) (c : Char) : Prop := ∀ t ∈ s.current, t.lexeme.step c = none

/-- A character that begins a token of its own completes the one before. -/
theorem push_of_breaksAt {s : Lexing} {c : Char} (h : s.BreaksAt c) :
    s.push c = ⟨s.tokens.toArray, some (.start1 s.stop c)⟩ := by
  obtain ⟨done, current⟩ := s
  cases current with
  | none => rfl
  | some t =>
      have ht : t.lexeme.step c = none := h t rfl
      have hdone : (done.push t.close).toList.toArray = done.push t.close :=
        Array.toArray_toList
      simp only [push, ht, tokens, stop, hdone]
      rfl

/-- The token in progress grows as long as its automaton goes on. -/
theorem pushAll_run (done : Array Token) {cs : List Char} {q : Lexeme} :
    ∀ (t : OpenToken), t.lexeme.run cs = some q →
      pushAll ⟨done, some t⟩ cs
        = ⟨done, some ⟨q, t.start, t.stop.afterAll cs, t.text ++ String.ofList cs⟩⟩ := by
  -- every character extends the token in progress, which is why that is general
  induction cs with
  | nil =>
      intro t h
      cases h
      simp
  | cons c cs ih =>
      intro t h
      rw [Lexeme.run_cons] at h
      cases hs : t.lexeme.step c with
      | none => rw [hs] at h; cases h
      | some s' =>
          rw [hs] at h
          have hpush : push ⟨done, some t⟩ c = ⟨done, some (t.extend s' c)⟩ := by
            simp only [push, hs]
          have htext : t.text.push c ++ String.ofList cs
              = t.text ++ String.ofList (c :: cs) := by
            rw [← String.toList_inj]
            simp
          rw [pushAll_cons, hpush, ih (t.extend s' c) h]
          show Lexing.mk done (some ⟨q, t.start, _, t.text.push c ++ String.ofList cs⟩) = _
          rw [htext]
          rfl

/-- **One more token**: behind a complete text, characters that are one token
for the automaton are the token in progress. -/
theorem pushAll_token {s : Lexing} {c : Char} {cs : List Char} {q : Lexeme}
    (hb : s.BreaksAt c) (hq : Lexeme.ofChars? (c :: cs) = some q) :
    s.pushAll (c :: cs)
      = ⟨s.tokens.toArray,
          some ⟨q, s.stop, s.stop.afterAll (c :: cs), String.ofList (c :: cs)⟩⟩ := by
  have htext : String.singleton c ++ String.ofList cs = String.ofList (c :: cs) := by
    rw [← String.toList_inj]
    simp
  rw [pushAll_cons, push_of_breaksAt hb, pushAll_run _ (.start1 s.stop c) hq]
  show Lexing.mk _ (some ⟨q, s.stop, _, String.singleton c ++ String.ofList cs⟩) = _
  rw [htext]
  rfl

end Lexing

/-! ## §3. Tokens without their places. -/

/-- What a token says, wherever it stands. -/
structure Piece where
  kind : Kind
  text : String
  deriving DecidableEq, Repr

/-- A token without its place. -/
def Token.piece (t : Token) : Piece := ⟨t.kind, t.text⟩

namespace Lexing

/-- The tokens of what has been read, without their places. -/
def pieces (s : Lexing) : List Piece := s.tokens.map Token.piece

/-- Behind a complete text, characters that are one token add that token, and
the next one begins wherever its automaton stops. -/
theorem pieces_pushAll_token {s : Lexing} {c : Char} {cs : List Char} {q : Lexeme}
    (hb : s.BreaksAt c) (hq : Lexeme.ofChars? (c :: cs) = some q) :
    (s.pushAll (c :: cs)).pieces
        = s.pieces ++ [⟨q.kind (String.ofList (c :: cs)), String.ofList (c :: cs)⟩]
      ∧ ∀ d, q.step d = none → (s.pushAll (c :: cs)).BreaksAt d := by
  rw [pushAll_token hb hq]
  constructor
  · simp [pieces, tokens, OpenToken.close, Token.piece]
  · intro d hd t ht
    cases ht
    exact hd

end Lexing

/-! ## §4. Places. -/

/-- Whether tokens follow each other without a gap from `p` on, each as long as
its text. -/
def Placed (p : Position) : List Token → Prop
  | [] => True
  | t :: ts => t.start = p ∧ t.stop = p.afterAll t.text.toList ∧ Placed t.stop ts

/-- Where tokens stop that were placed from `p` on. -/
def stopFrom (p : Position) (ts : List Token) : Position := (ts.getLast?.map Token.stop).getD p

theorem stopFrom_cons (p : Position) (t : Token) (ts : List Token) :
    stopFrom p (t :: ts) = stopFrom t.stop ts := by
  simp only [stopFrom, List.getLast?_cons]
  cases ts.getLast? <;> rfl

theorem placed_append {p : Position} {as bs : List Token} :
    Placed p (as ++ bs) ↔ Placed p as ∧ Placed (stopFrom p as) bs := by
  induction as generalizing p with
  | nil => simp [Placed, stopFrom]
  | cons a as ih =>
      rw [List.cons_append, Placed, Placed, ih, stopFrom_cons, and_assoc, and_assoc]

namespace Lexing

/-- What a pass from the start of a text keeps: its tokens are placed, and it
has got to where they stop. -/
structure IsPlaced (s : Lexing) : Prop where
  placed : Placed .origin s.tokens
  stop_eq : s.stop = stopFrom .origin s.tokens

theorem isPlaced_begin : begin.IsPlaced := ⟨trivial, rfl⟩

theorem isPlaced_push {s : Lexing} (h : s.IsPlaced) (c : Char) : (s.push c).IsPlaced := by
  obtain ⟨done, current⟩ := s
  obtain ⟨hplaced, hstop⟩ := h
  cases current with
  | none =>
      -- the first character of the text starts a token at the origin
      have hdone : stopFrom .origin done.toList = .origin := hstop.symm
      constructor
      · show Placed .origin ((done.push _).toList)
        rw [Array.toList_push, placed_append]
        refine ⟨hplaced, ?_⟩
        rw [hdone]
        simp [Placed, OpenToken.close, OpenToken.start1]
      · simp [stop, push, tokens, stopFrom, OpenToken.close]
  | some t =>
      cases hs : t.lexeme.step c with
      | some q =>
          -- the last token gets longer by a character, and so does the way to its stop
          have hpush : push ⟨done, some t⟩ c = ⟨done, some (t.extend q c)⟩ := by
            simp only [push, hs]
          rw [hpush]
          simp only [tokens, Array.toList_push, placed_append, Placed, and_true] at hplaced
          constructor
          · simp only [tokens, Array.toList_push, placed_append, Placed, and_true]
            refine ⟨hplaced.1, hplaced.2.1, ?_⟩
            show t.stop.after c = _
            rw [show t.stop = _ from hplaced.2.2]
            simp [OpenToken.extend, OpenToken.close]
          · simp [stop, tokens, stopFrom, OpenToken.close]
      | none =>
          -- a new token starts where the last one stops
          have hb : BreaksAt ⟨done, some t⟩ c := by
            intro u hu
            cases hu
            exact hs
          rw [push_of_breaksAt hb]
          constructor
          · show Placed .origin (Array.toList (Array.push _ _))
            rw [Array.toList_push, List.toList_toArray, placed_append]
            refine ⟨hplaced, ?_⟩
            rw [← hstop]
            simp [Placed, OpenToken.close, OpenToken.start1]
          · simp [stop, tokens, stopFrom, OpenToken.close]

theorem isPlaced_pushAll {s : Lexing} (h : s.IsPlaced) (cs : List Char) :
    (s.pushAll cs).IsPlaced := by
  induction cs generalizing s with
  | nil => exact h
  | cons c cs ih => exact ih (isPlaced_push h c)

end Lexing

/-- **The tokens of a text follow each other without a gap.** -/
theorem tokenize_placed (text : String) : Placed .origin (tokenize text) :=
  (Lexing.isPlaced_pushAll Lexing.isPlaced_begin text.toList).placed

end LispLink.Source
