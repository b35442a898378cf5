/-
  LispLink.Proofs.Source.Walk
  ────────────────────────────────
  **WALKING THROUGH WHAT IS READ.**

  A walk goes through expressions in the order of the text and writes something
  for each atom, in front of each list, and behind each list that is closed.
  What it writes for a reading in progress only grows, and a token adds what the
  nesting before it says (`Pen.output`):

      walk (r.push t)  =  walk r ++ output (depth of r) (index of t) t

  So a walk through the forms of a token list writes what its tokens say, one
  after the other (`walkAll_read`).
-/
import LispLink.Proofs.Source.Nesting

namespace LispLink.Source

/-! ## §1. Walks. -/

/-- What a walk writes: for the token of an atom and its index, in front of a list
that starts somewhere, and behind one that is closed and stops somewhere. -/
structure Pen (β : Type) where
  atom : Token → Nat → List β
  opening : Position → List β
  closing : Position → List β

variable {β : Type}

mutual

/-- Walk through an expression. -/
def Sexp.walk (w : Pen β) : Sexp → List β
  | .atom a => w.atom a.token a.index
  | .list o _ es =>
    w.opening o.start ++ Sexp.walkAll w es ++ if o.closed then w.closing o.stop else []

/-- Walk through expressions one after the other. -/
def Sexp.walkAll (w : Pen β) : List Sexp → List β
  | [] => []
  | e :: es => e.walk w ++ Sexp.walkAll w es

end

/-- What a token adds to a walk, if `n` parens are open before it and its index is
`i`.  Where lists are read flat, parens are passed over and prefix operators are
atoms. -/
def Pen.output (w : Pen β) (n i : Nat) (t : Token) : List β :=
  if t.kind.isTrivia then []
  else match t.kind with
  | .openParen => if n ≤ maxDepth then w.opening t.start else []
  | .closeParen =>
    if n = 0 then w.atom t i else if n ≤ maxDepth + 1 then w.closing t.stop else []
  | .quote | .backquote | .comma => if n ≤ maxDepth then [] else w.atom t i
  | _ => w.atom t i

/-- What tokens in a row add. -/
def Pen.outputs (w : Pen β) : Nat → Nat → List Token → List β
  | _, _, [] => []
  | n, i, t :: ts => w.output n i t ++ w.outputs (t.kind.nest n) (i + 1) ts

section

variable (w : Pen β)

theorem Sexp.walkAll_append (es es' : List Sexp) :
    walkAll w (es ++ es') = walkAll w es ++ walkAll w es' := by
  induction es with
  | nil => rfl
  | cons e es ih =>
      show e.walk w ++ walkAll w (es ++ es') = e.walk w ++ walkAll w es ++ walkAll w es'
      rw [ih, List.append_assoc]

theorem Sexp.walkAll_concat (es : List Sexp) (e : Sexp) :
    walkAll w (es ++ [e]) = walkAll w es ++ e.walk w := by
  rw [walkAll_append]
  exact congrArg _ (List.append_nil _)

variable {n i : Nat} {t : Token}

theorem Pen.output_trivia (hk : t.kind.isTrivia = true) : w.output n i t = [] := if_pos hk

theorem Pen.output_operator (hk : t.kind.isOperator = true) :
    w.output n i t = if n ≤ maxDepth then [] else w.atom t i := by
  unfold output
  rcases Kind.isOperator_iff.1 hk with hk | hk | hk <;> rw [hk] <;> rfl

theorem Pen.output_atomic (hk : t.kind.isAtomic = true) : w.output n i t = w.atom t i := by
  rw [output, if_neg (Kind.not_isTrivia_of_isAtomic hk)]
  -- the other cases are those of the parens and the prefix operators
  split
  case h_6 => rfl
  all_goals
    rename_i h
    rw [h] at hk
    cases hk

theorem Pen.output_openParen (hk : t.kind = .openParen) :
    w.output n i t = if n ≤ maxDepth then w.opening t.start else [] := by
  unfold output
  rw [hk]
  rfl

theorem Pen.output_closeParen (hk : t.kind = .closeParen) :
    w.output n i t =
      if n = 0 then w.atom t i else if n ≤ maxDepth + 1 then w.closing t.stop else [] := by
  unfold output
  rw [hk]
  rfl

end

/-! ## §2. A reading in progress. -/

namespace Reading

/-- Walk through the open lists, the outermost first. -/
def walkStack (w : Pen β) : List OpenList → List β
  | [] => []
  | l :: ls => walkStack w ls ++ (w.opening l.start ++ Sexp.walkAll w l.elements.reverse)

/-- Walk through the list that is read flat. -/
def walkFlat (w : Pen β) : Option FlatList → List β
  | none => []
  | some f => w.opening f.start ++ Sexp.walkAll w f.elements.reverse

/-- Walk through all that has been read. -/
def walk (w : Pen β) (r : Reading) : List β :=
  Sexp.walkAll w r.forms.reverse ++ walkStack w r.stack ++ walkFlat w r.flat

section

variable (w : Pen β) (r : Reading)

/-- A complete expression is walked through behind all that has been read. -/
theorem walk_add (hf : r.flat = none) (e : Sexp) : (r.add e).walk w = r.walk w ++ e.walk w := by
  unfold walk
  rw [flat_add, hf]
  unfold add
  cases hs : r.stack with
  | nil =>
      show Sexp.walkAll w (e :: r.forms).reverse ++ [] ++ []
        = Sexp.walkAll w r.forms.reverse ++ [] ++ [] ++ e.walk w
      rw [List.reverse_cons, Sexp.walkAll_concat]
      simp
  | cons l ls =>
      show Sexp.walkAll w r.forms.reverse
          ++ (walkStack w ls ++ (w.opening l.start ++ Sexp.walkAll w (e :: l.elements).reverse)) ++ []
        = Sexp.walkAll w r.forms.reverse
          ++ (walkStack w ls ++ (w.opening l.start ++ Sexp.walkAll w l.elements.reverse)) ++ []
          ++ e.walk w
      rw [List.reverse_cons, Sexp.walkAll_concat]
      simp

/-- Closing a list writes what stands behind it. -/
theorem walk_close {l : OpenList} {ls : List OpenList} (hf : r.flat = none)
    (hs : r.stack = l :: ls) (stop : Position) (closed : Bool) :
    (r.close stop closed).walk w = r.walk w ++ if closed then w.closing stop else [] := by
  unfold close
  rw [hs]
  refine (walk_add w _ ?_ _).trans ?_
  · exact hf
  unfold walk
  rw [hs, hf]
  show Sexp.walkAll w r.forms.reverse ++ walkStack w ls ++ []
      ++ (w.opening l.start ++ Sexp.walkAll w l.elements.reverse
        ++ if closed then w.closing stop else [])
    = Sexp.walkAll w r.forms.reverse
      ++ (walkStack w ls ++ (w.opening l.start ++ Sexp.walkAll w l.elements.reverse)) ++ []
      ++ if closed then w.closing stop else []
  simp

theorem walk_closeFlat {f : FlatList} (hf : r.flat = some f) (stop : Position) (closed : Bool) :
    (r.closeFlat f stop closed).walk w = r.walk w ++ if closed then w.closing stop else [] := by
  unfold closeFlat
  rw [walk_add w _ rfl]
  unfold walk
  rw [hf]
  show Sexp.walkAll w r.forms.reverse ++ walkStack w r.stack ++ []
      ++ (w.opening f.start ++ Sexp.walkAll w f.elements.reverse
        ++ if closed then w.closing stop else [])
    = Sexp.walkAll w r.forms.reverse ++ walkStack w r.stack
      ++ (w.opening f.start ++ Sexp.walkAll w f.elements.reverse)
      ++ if closed then w.closing stop else []
  simp

end

variable (w : Pen β) {r : Reading}

/-- **A token adds its output to a walk, and nothing that was written changes.** -/
theorem walk_step {r' : Reading} {t : Token} (hstep : Step r t r') (h : r.IsCapped) :
    r'.walk w = r.walk w ++ w.output r.depth r.classes.size t := by
  -- outside a flat list a reading is at most as deep as the cap
  have htree : r.flat = none → r.depth ≤ maxDepth := by
    intro hf
    rw [depth, flatDepth_of_none hf]
    exact h.stack_le
  have hflat : ∀ f, r.flat = some f → r.depth = maxDepth + (f.inner + 1) := by
    intro f hf
    rw [depth, flatDepth_of_some hf, h.flat_at f hf]
  cases hstep with
  | trivia hk =>
      rw [w.output_trivia hk, List.append_nil]
      rfl
  | operator hk hf =>
      rw [w.output_operator hk, if_pos (htree hf), List.append_nil]
      rfl
  | atom hk hf =>
      rw [w.output_atomic hk]
      exact walk_add w (r.classed t.kind r.next) hf _
  | stray hk hf hs =>
      have hzero : r.depth = 0 := (depth_eq_zero_iff r).2 ⟨hs, hf⟩
      rw [w.output_closeParen hk, if_pos hzero]
      exact walk_add w (r.classed .strayParen .none) hf _
  | opens hk hf hlen =>
      rw [w.output_openParen hk, if_pos (htree hf)]
      unfold walk
      show Sexp.walkAll w r.forms.reverse
          ++ (walkStack w r.stack ++ (w.opening t.start ++ [])) ++ walkFlat w r.flat
        = Sexp.walkAll w r.forms.reverse ++ walkStack w r.stack ++ walkFlat w r.flat
          ++ w.opening t.start
      rw [hf]
      simp [walkFlat]
  | closes l ls hk hf hs =>
      have hpos : r.depth ≠ 0 := by
        intro hzero
        rw [depth_eq_zero_iff, hs] at hzero
        cases hzero.1
      rw [w.output_closeParen hk, if_neg hpos, if_pos (Nat.le_succ_of_le (htree hf))]
      exact walk_close w (r.classed .closeParen l.taint) hf hs t.stop true
  | opensFlat hk hf hlen =>
      rw [w.output_openParen hk, if_pos (htree hf)]
      unfold walk
      rw [hf]
      show Sexp.walkAll w r.forms.reverse ++ walkStack w r.stack ++ (w.opening t.start ++ [])
        = Sexp.walkAll w r.forms.reverse ++ walkStack w r.stack ++ [] ++ w.opening t.start
      simp
  | flatAtom f hk hf =>
      have hout : w.output r.depth r.classes.size t = w.atom t r.classes.size := by
        rcases hk with hk | hk
        · exact w.output_atomic hk
        · have hdeep : ¬ r.depth ≤ maxDepth := by
            rw [hflat f hf]
            omega
          rw [w.output_operator hk, if_neg hdeep]
      rw [hout]
      unfold walk
      rw [hf]
      show Sexp.walkAll w r.forms.reverse ++ walkStack w r.stack
          ++ (w.opening f.start ++ Sexp.walkAll w (_ :: f.elements).reverse)
        = Sexp.walkAll w r.forms.reverse ++ walkStack w r.stack
          ++ (w.opening f.start ++ Sexp.walkAll w f.elements.reverse) ++ w.atom t r.classes.size
      rw [List.reverse_cons, Sexp.walkAll_concat]
      simp [Sexp.walk]
  | opensInner f hk hf =>
      have hdeep : ¬ r.depth ≤ maxDepth := by
        rw [hflat f hf]
        omega
      rw [w.output_openParen hk, if_neg hdeep, List.append_nil]
      unfold walk
      rw [hf]
      rfl
  | closesInner f n hk hf hi =>
      have hdeep : ¬ r.depth ≤ maxDepth + 1 := by
        rw [hflat f hf]
        omega
      have hpos : r.depth ≠ 0 := by omega
      rw [w.output_closeParen hk, if_neg hpos, if_neg hdeep, List.append_nil]
      unfold walk
      rw [hf]
      rfl
  | closesFlat f hk hf hi =>
      have hlast : r.depth = maxDepth + 1 := by
        rw [hflat f hf, hi]
      have hpos : r.depth ≠ 0 := by omega
      rw [w.output_closeParen hk, if_neg hpos, if_pos (Nat.le_of_eq hlast)]
      exact walk_closeFlat w (r.classed .closeParen f.taint) hf t.stop true

theorem walk_pushAll (h : r.IsCapped) (ts : List Token) :
    (r.pushAll ts).walk w = r.walk w ++ w.outputs r.depth r.classes.size ts := by
  induction ts generalizing r with
  | nil => exact (List.append_nil _).symm
  | cons t ts ih =>
      obtain ⟨hcapped, hdepth, hsize⟩ := depth_step (r.step_push t) h
      rw [pushAll_cons, ih hcapped, walk_step w (r.step_push t) h, hdepth, hsize,
        List.append_assoc]
      rfl

/-! ## §3. The end of the text. -/

/-- **What closing one list keeps, closing all of them keeps**, and then none is
left. -/
theorem closeAll_induction {P : Reading → Prop} (stop : Position)
    (hflat : ∀ f, r.flat = some f → P (r.closeFlat f stop false))
    (htree : r.flat = none → P r)
    (hclose : ∀ r l ls, r.flat = none → r.stack = l :: ls → P r → P (r.close stop false)) :
    P (r.closeAll stop) ∧ (r.closeAll stop).stack = [] ∧ (r.closeAll stop).flat = none := by
  have hfold : ∀ (ls : List OpenList) (r : Reading), r.stack.length = ls.length →
      r.flat = none → P r →
      P (ls.foldl (fun r _ => r.close stop false) r)
        ∧ (ls.foldl (fun r _ => r.close stop false) r).stack = []
        ∧ (ls.foldl (fun r _ => r.close stop false) r).flat = none := by
    intro ls
    induction ls with
    | nil =>
        intro r hlen hf hr
        exact ⟨hr, List.eq_nil_of_length_eq_zero hlen, hf⟩
    | cons _ ls ih =>
        intro r hlen hf hr
        obtain ⟨l, ls', hs⟩ := List.exists_cons_of_length_eq_add_one hlen
        refine ih (r.close stop false) ?_ ((flat_close _ _ _).trans hf) (hclose r l ls' hf hs hr)
        rw [length_stack_close, hlen, List.length_cons]
        rfl
  unfold closeAll
  cases hf : r.flat with
  | none => exact hfold r.stack r rfl hf (htree hf)
  | some f =>
      have hnone : (r.closeFlat f stop false).flat = none := flat_add _ _
      exact hfold _ _ rfl hnone (hflat f hf)

/-- Lists that are not closed have nothing behind them. -/
theorem walk_closeAll (r : Reading) (stop : Position) :
    (r.closeAll stop).walk w = r.walk w ∧ (r.closeAll stop).stack = []
      ∧ (r.closeAll stop).flat = none := by
  refine closeAll_induction (P := fun r' => r'.walk w = r.walk w) stop ?_ ?_ ?_
  · intro f hf
    rw [walk_closeFlat w _ hf]
    exact List.append_nil _
  · intro _
    rfl
  · intro r' l ls hf hs hr
    rw [walk_close w _ hf hs]
    exact (List.append_nil _).trans hr

end Reading

/-- **A walk through the forms of a token list writes what its tokens say.** -/
theorem walkAll_read (w : Pen β) (ts : List Token) :
    Sexp.walkAll w (read ts).forms = w.outputs 0 0 ts := by
  obtain ⟨hwalk, hstack, hflat⟩ :=
    Reading.walk_closeAll w (Reading.begin.pushAll ts) (stopOf ts)
  have hforms : Reading.walk w ((Reading.begin.pushAll ts).closeAll (stopOf ts))
      = Sexp.walkAll w (read ts).forms := by
    unfold Reading.walk
    rw [hstack, hflat]
    exact (List.append_nil _).trans (List.append_nil _)
  rw [← hforms, hwalk, Reading.walk_pushAll w Reading.isCapped_begin]
  rfl

/-- Every token of a text is read. -/
theorem length_classes_read (ts : List Token) : (read ts).classes.length = ts.length := by
  obtain ⟨_, _, hsize⟩ := Reading.depth_pushAll Reading.isCapped_begin ts
  have hclose := Reading.closeAll_induction
    (r := Reading.begin.pushAll ts) (P := fun r => r.classes.size = ts.length) (stopOf ts)
    (fun f hf => by
      rw [Reading.closeFlat, Reading.classes_add]
      exact hsize.trans (Nat.zero_add _))
    (fun _ => hsize.trans (Nat.zero_add _))
    (fun r l ls _ _ hr => by rw [Reading.size_classes_close, hr])
  show ((Reading.begin.pushAll ts).closeAll (stopOf ts)).classes.toList.length = _
  rw [Array.length_toList]
  exact hclose.1

end LispLink.Source
