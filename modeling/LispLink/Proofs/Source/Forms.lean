/-
  LispLink.Proofs.Source.Forms
  ────────────────────────────────
  **THE TOP LEVEL OF A TEXT.**

  Seen from outside all lists, reading is a machine with two states, between
  lists and in a list that started at `p`; a token takes it from one to the
  other or makes a form (`TopStep`):

      between lists   ──atom──▸   between lists, one more form
      between lists   ──open──▸   in a list that starts there
      in a list at p  ──close─▸   between lists, one more form that starts at p

  From this machine alone: the forms of a text come in the order of their
  starts, and each list among them has the role that recognition finds in its
  elements, since no list at the top level is ever read flat.
-/
import LispLink.Proofs.Source.Lexing
import LispLink.Proofs.Source.Steps

namespace LispLink.Source

/-! ## §1. The order of places. -/

/-- Places are ordered by line and by column within a line. -/
instance : LE Position := ⟨fun p q => p.line < q.line ∨ p.line = q.line ∧ p.col ≤ q.col⟩

namespace Position

variable {p q : Position}

theorem le_iff : p ≤ q ↔ p.line < q.line ∨ p.line = q.line ∧ p.col ≤ q.col := Iff.rfl

theorem line_le (h : p ≤ q) : p.line ≤ q.line := by
  rw [le_iff] at h
  omega

theorem le_self (p : Position) : p ≤ p := by
  rw [le_iff]
  omega

theorem le_trans {s : Position} (h : p ≤ q) (h' : q ≤ s) : p ≤ s := by
  rw [le_iff] at h h' ⊢
  omega

theorem le_afterAll (p : Position) (cs : List Char) : p ≤ p.afterAll cs := by
  induction cs generalizing p with
  | nil => exact le_self p
  | cons c cs ih =>
      refine le_trans ?_ (ih (p.after c))
      rw [le_iff, after]
      split
      · left
        exact Nat.lt_succ_self p.line
      · right
        exact ⟨rfl, Nat.le_succ p.col⟩

end Position

/-! ## §2. The machine. -/

/-- A list whose role is what recognition finds in its elements.  An atom has
no role. -/
def Sexp.IsRecognized : Sexp → Prop
  | .atom _ => True
  | .list o role es => role = (Recognition.ofList o.taint es).role

/-- What the top level knows of a reading: its forms, last first, and where the
outermost open list started. -/
structure Top where
  forms : List Sexp
  inside : Option Position

/-- What one token does at the top level. -/
inductive TopStep (t : Token) : Top → Top → Prop where
  | stays (s : Top) : TopStep t s s
  | atom (fs : List Sexp) (a : Atom) (h : a.token = t) :
      TopStep t ⟨fs, none⟩ ⟨.atom a :: fs, none⟩
  | opens (fs : List Sexp) : TopStep t ⟨fs, none⟩ ⟨fs, some t.start⟩
  | closes (fs : List Sexp) (p : Position) (e : Sexp) (hp : e.start = p)
      (he : e.IsRecognized) : TopStep t ⟨fs, some p⟩ ⟨e :: fs, none⟩

namespace Reading

/-- The top level of a reading. -/
def top (r : Reading) : Top := ⟨r.forms, r.stack.getLast?.map OpenList.start⟩

/-- Whether a list that is read flat stands inside another list. -/
def FlatInside (r : Reading) : Prop := r.flat ≠ none → r.stack ≠ []

section

variable {r : Reading} {l l' : OpenList} {ls : List OpenList} {e : Sexp}

theorem top_add_outside (h : r.stack = []) : (r.add e).top = ⟨e :: r.forms, none⟩ := by
  unfold top add
  rw [h]
  rfl

theorem top_add_inside (h : r.stack = l :: ls) : (r.add e).top = r.top := by
  unfold top add
  rw [h]
  cases ls <;> rfl

theorem flat_add (r : Reading) (e : Sexp) : (r.add e).flat = r.flat := by
  unfold add
  cases r.stack <;> rfl

theorem stack_add_ne_nil (h : r.stack ≠ []) : (r.add e).stack ≠ [] := by
  obtain ⟨l, ls, hls⟩ := List.exists_cons_of_ne_nil h
  unfold add
  rw [hls]
  exact List.cons_ne_nil _ _

theorem flat_close (r : Reading) (stop : Position) (closed : Bool) :
    (r.close stop closed).flat = r.flat := by
  unfold close
  cases r.stack with
  | nil => rfl
  | cons l ls => rw [flat_add]

/-- The outermost list becomes a form. -/
theorem top_close_last (stop : Position) (closed : Bool) (h : r.stack = [l]) :
    ∃ e : Sexp, (r.close stop closed).top = ⟨e :: r.forms, none⟩ ∧ e.start = l.start
      ∧ e.IsRecognized := by
  unfold close
  rw [h]
  exact ⟨_, top_add_outside rfl, rfl, rfl⟩

/-- An inner list becomes part of another one. -/
theorem top_close_inner (stop : Position) (closed : Bool) (h : r.stack = l :: l' :: ls) :
    (r.close stop closed).top = r.top := by
  unfold close
  rw [h]
  show Reading.top (add _ _) = _
  rw [top_add_inside rfl]
  unfold top
  rw [h]
  rfl

end

/-! ## §3. Every token is a step. -/

variable {r : Reading} {t : Token}

theorem flatInside_of_none (h : r.flat = none) : r.FlatInside := fun hne => absurd h hne

theorem topStep_add (r : Reading) {a : Atom} (ha : a.token = t) :
    TopStep t r.top (r.add (.atom a)).top := by
  cases hs : r.stack with
  | nil =>
      rw [top_add_outside hs, top, hs]
      exact .atom r.forms a ha
  | cons l ls =>
      rw [top_add_inside hs]
      exact .stays r.top

theorem topStep_close (r : Reading) (t : Token) (stop : Position) (closed : Bool) :
    TopStep t r.top (r.close stop closed).top := by
  cases hs : r.stack with
  | nil =>
      have hsame : r.close stop closed = r := by rw [close, hs]
      rw [hsame]
      exact .stays r.top
  | cons l ls =>
      cases ls with
      | nil =>
          obtain ⟨e, htop, hstart, he⟩ := top_close_last stop closed hs
          rw [htop, top, hs]
          exact .closes r.forms l.start e hstart he
      | cons l' ls =>
          rw [top_close_inner stop closed hs]
          exact .stays r.top

/-- An open paren opens a list at the top level or one inside another. -/
theorem topStep_openList (hf : r.flat = none) (index : Nat) :
    TopStep t r.top (r.openList t.start index).top
      ∧ (r.openList t.start index).FlatInside := by
  unfold openList
  by_cases hlen : r.stack.length < maxDepth
  · rw [if_pos hlen]
    refine ⟨?_, flatInside_of_none hf⟩
    unfold top
    cases hs : r.stack with
    | nil => exact .opens r.forms
    | cons l ls =>
        rw [List.getLast?_cons_cons]
        exact .stays _
  · -- a list that is read flat is far inside
    rw [if_neg hlen]
    refine ⟨.stays r.top, ?_⟩
    intro _ hnil
    have hnil' : r.stack = [] := hnil
    rw [hnil'] at hlen
    exact hlen (by decide)

/-- A list that is read flat keeps the top level as it is. -/
theorem top_pushFlat {f : FlatList} (hs : r.stack ≠ []) :
    (r.pushFlat f t).top = r.top ∧ (r.pushFlat f t).stack ≠ [] := by
  obtain ⟨l, ls, hls⟩ := List.exists_cons_of_ne_nil hs
  unfold pushFlat
  split
  · exact ⟨rfl, hs⟩
  · dsimp only
    split
    · rw [closeFlat]
      exact ⟨top_add_inside hls, stack_add_ne_nil hs⟩
    · exact ⟨rfl, hs⟩
  · exact ⟨rfl, hs⟩

theorem topStep_pushTree (hf : r.flat = none) (t : Token) :
    TopStep t r.top (r.pushTree t).top ∧ (r.pushTree t).FlatInside := by
  unfold pushTree
  -- by the kind of the token: an open paren, a close paren with or without a list
  -- to close, the three prefix operators, and whatever is an atom
  split
  · exact topStep_openList (r := r.classed t.kind r.next) hf r.classes.size
  · split
    · exact ⟨topStep_add (r.classed .strayParen .none) rfl,
        flatInside_of_none ((flat_add _ _).trans hf)⟩
    · next l _ _ =>
        exact ⟨topStep_close (r.classed t.kind l.taint) t t.stop true,
          flatInside_of_none ((flat_close _ _ _).trans hf)⟩
  · exact ⟨.stays r.top, flatInside_of_none hf⟩
  · exact ⟨.stays r.top, flatInside_of_none hf⟩
  · exact ⟨.stays r.top, flatInside_of_none hf⟩
  · exact ⟨topStep_add (r.classed t.kind r.next) rfl,
      flatInside_of_none ((flat_add _ _).trans hf)⟩

/-- **A token takes one step at the top level.** -/
theorem topStep_push (hr : r.FlatInside) (t : Token) :
    TopStep t r.top (r.push t).top ∧ (r.push t).FlatInside := by
  by_cases htriv : t.kind.isTrivia = true
  · rw [push_trivia htriv]
    exact ⟨.stays r.top, hr⟩
  · rw [push, if_neg htriv]
    cases hf : r.flat with
    | some f =>
        have hs : r.stack ≠ [] := hr (by rw [hf]; exact Option.some_ne_none f)
        obtain ⟨htop, hstack⟩ := top_pushFlat (f := f) (t := t) hs
        show TopStep t r.top (r.pushFlat f t).top ∧ (r.pushFlat f t).FlatInside
        rw [htop]
        exact ⟨.stays r.top, fun _ => hstack⟩
    | none => exact topStep_pushTree hf t

end Reading

/-! ## §4. What the machine keeps. -/

namespace Top

/-- The starts of the open list and of the forms, last first. -/
def starts (s : Top) : List Position := s.inside.toList ++ s.forms.map Sexp.start

/-- What holds at the top level of a reading that has got to `p`. -/
structure IsSound (s : Top) (p : Position) : Prop where
  recognized : ∀ e ∈ s.forms, e.IsRecognized
  descending : s.starts.Pairwise fun a b => b ≤ a
  reached : ∀ q ∈ s.starts, q ≤ p

theorem isSound_mono {s : Top} {p q : Position} (h : s.IsSound p) (hpq : p ≤ q) : s.IsSound q :=
  ⟨h.recognized, h.descending, fun a ha => Position.le_trans (h.reached a ha) hpq⟩

theorem isSound_step {s s' : Top} {t : Token} (hstep : TopStep t s s') (h : s.IsSound t.start) :
    s'.IsSound t.start := by
  cases hstep with
  | stays => exact h
  | atom fs a ha =>
      -- an atom starts where the reading has got to, so behind all starts before
      subst ha
      refine ⟨?_, ?_, ?_⟩
      · intro e he
        rcases List.mem_cons.1 he with rfl | he
        · trivial
        · exact h.recognized e he
      · exact List.pairwise_cons.2 ⟨h.reached, h.descending⟩
      · intro q hq
        rcases List.mem_cons.1 hq with rfl | hq
        · exact Position.le_self _
        · exact h.reached q hq
  | opens fs =>
      refine ⟨h.recognized, ?_, ?_⟩
      · exact List.pairwise_cons.2 ⟨h.reached, h.descending⟩
      · intro q hq
        rcases List.mem_cons.1 hq with rfl | hq
        · exact Position.le_self _
        · exact h.reached q hq
  | closes fs p e hp he =>
      -- the form starts where the open list did, so the starts stay the same
      have hstarts : Top.starts ⟨e :: fs, none⟩ = Top.starts ⟨fs, some p⟩ := by
        simp [starts, hp]
      refine ⟨?_, ?_, ?_⟩
      · intro e' he'
        rcases List.mem_cons.1 he' with rfl | he'
        · exact he
        · exact h.recognized e' he'
      · rw [hstarts]
        exact h.descending
      · rw [hstarts]
        exact h.reached

end Top

namespace Reading

theorem isSound_pushAll {ts : List Token} :
    ∀ {r : Reading} {p : Position}, r.FlatInside → r.top.IsSound p → Placed p ts →
      (r.pushAll ts).FlatInside ∧ ∃ q, (r.pushAll ts).top.IsSound q := by
  -- the place moves along with the tokens: each starts where the one before stops
  induction ts with
  | nil =>
      intro r p hr h _
      exact ⟨hr, p, h⟩
  | cons t ts ih =>
      intro r p hr h hplaced
      obtain ⟨rfl, hstop, hplaced⟩ := hplaced
      obtain ⟨hstep, hr'⟩ := topStep_push hr t
      have hle : t.start ≤ t.stop := by
        rw [hstop]
        exact Position.le_afterAll _ _
      exact ih hr' (Top.isSound_mono (Top.isSound_step hstep h) hle) hplaced

theorem isSound_close {r : Reading} {p : Position} (h : r.top.IsSound p) (stop : Position) :
    (r.close stop false).top.IsSound p :=
  Top.isSound_step (topStep_close r ⟨.closeParen, p, p, ""⟩ stop false) h

theorem isSound_closeAll {r : Reading} {p : Position} (hr : r.FlatInside)
    (h : r.top.IsSound p) (stop : Position) : (r.closeAll stop).top.IsSound p := by
  have hfold : ∀ (ls : List OpenList) (r : Reading), r.top.IsSound p →
      (ls.foldl (fun r _ => r.close stop false) r).top.IsSound p := by
    intro ls
    induction ls with
    | nil =>
        intro r h
        exact h
    | cons l ls ih =>
        intro r h
        exact ih _ (isSound_close h stop)
  unfold closeAll
  cases hf : r.flat with
  | none => exact hfold r.stack r h
  | some f =>
      -- the flat list goes into the list around it, which is not at the top level
      have hs : r.stack ≠ [] := hr (by rw [hf]; exact Option.some_ne_none f)
      obtain ⟨l, ls, hls⟩ := List.exists_cons_of_ne_nil hs
      have hsame : (r.closeFlat f stop false).top = r.top := by
        rw [closeFlat]
        exact top_add_inside hls
      exact hfold _ _ (hsame ▸ h)

end Reading

/-! ## §5. The forms of a text. -/

theorem isSound_begin : Reading.begin.top.IsSound .origin :=
  ⟨fun _ he => (nomatch he), List.Pairwise.nil, fun _ hq => (nomatch hq)⟩

theorem isSound_parse (text : String) :
    ∃ s : Top, (∃ p, s.IsSound p) ∧ parse text = s.forms.reverse := by
  obtain ⟨hflat, p, h⟩ := Reading.isSound_pushAll
    (Reading.flatInside_of_none rfl) isSound_begin (tokenize_placed text)
  exact ⟨_, ⟨p, Reading.isSound_closeAll hflat h (stopOf (tokenize text))⟩, rfl⟩

/-- **The forms of a text come in the order of their starts.** -/
theorem parse_ascending (text : String) :
    (parse text).Pairwise fun a b => a.start ≤ b.start := by
  obtain ⟨s, ⟨p, h⟩, hparse⟩ := isSound_parse text
  have hforms : (s.forms.map Sexp.start).Pairwise fun a b => b ≤ a :=
    (List.pairwise_append.1 h.descending).2.1
  rw [hparse, List.pairwise_reverse]
  exact List.pairwise_map.1 hforms

/-- **Every list among the forms of a text has the role that recognition finds
in its elements.** -/
theorem parse_recognized (text : String) : ∀ e ∈ parse text, e.IsRecognized := by
  obtain ⟨s, ⟨p, h⟩, hparse⟩ := isSound_parse text
  intro e he
  rw [hparse, List.mem_reverse] at he
  exact h.recognized e he

end LispLink.Source
