/-
  LispLink.Proofs.Source.Replay
  ────────────────────────────────
  **THE SAME TOKENS, READ AGAIN ELSEWHERE.**

  Tokens may be read again at other places, with trivia between them and with
  something else read before.  The second reading follows the first: it has what
  the first has, relocated, behind what it had before.

      forms    of the second  =  forms of the first, relocated  ++  forms before
      classes  of the second  ⊇  classes of the first, at their new indices

  A token that both read keeps this, and so does trivia that only the second one
  reads (`Follows.pushAll`); closing the lists that are open keeps it as well.
-/
import LispLink.Proofs.Source.Relocation
import LispLink.Proofs.Source.Walk

namespace LispLink.Source

/-! ## §1. Classes at other indices. -/

/-- Whether the classes `there` begin with those of `before`, and have the classes
`here` behind them, at the indices that the relocation says. -/
structure Relocation.HasClasses (m : Relocation) (before here there : Array TokenClass) :
    Prop where
  behind : ∀ i, before.size ≤ m.index i
  kept : ∀ k < before.size, there[k]? = before[k]?
  moved : ∀ i < here.size, there[m.index i]? = here[i]?

namespace Relocation.HasClasses

variable {m : Relocation} {before here there : Array TokenClass}

/-- Where there is a class as there is one here, there is one. -/
theorem lt_size_of_eq {k i : Nat} (h : there[k]? = here[i]?) (hi : i < here.size) :
    k < there.size := by
  rw [Array.getElem?_eq_getElem hi] at h
  exact (Array.getElem?_eq_some_iff.1 h).1

/-- A class more at the end, for a token that is not there at the one side. -/
theorem push_there (h : m.HasClasses before here there) (c : TokenClass) :
    m.HasClasses before here (there.push c) := by
  refine ⟨h.behind, ?_, ?_⟩
  · intro k hk
    rw [Array.getElem?_push, if_neg (Nat.ne_of_lt (lt_size_of_eq (h.kept k hk) hk))]
    exact h.kept k hk
  · intro i hi
    rw [Array.getElem?_push, if_neg (Nat.ne_of_lt (lt_size_of_eq (h.moved i hi) hi))]
    exact h.moved i hi

/-- A class more at the end of both, if the token is where the relocation says. -/
theorem push (h : m.HasClasses before here there) (hsize : m.index here.size = there.size)
    (c : TokenClass) : m.HasClasses before (here.push c) (there.push c) := by
  refine ⟨h.behind, (h.push_there c).kept, ?_⟩
  intro i hi
  rw [Array.size_push] at hi
  rcases Nat.lt_succ_iff_lt_or_eq.1 hi with hi | rfl
  · rw [(h.push_there c).moved i hi, Array.getElem?_push, if_neg (Nat.ne_of_lt hi)]
  · rw [hsize, Array.getElem?_push_size, Array.getElem?_push_size]

/-- Marks on both sides. -/
theorem mark (h : m.HasClasses before here there) (marks : List Mark) :
    m.HasClasses before (Reading.mark here marks)
      (Reading.mark there (marks.map (Mark.relocated m))) := by
  induction marks generalizing here there with
  | nil => exact h
  | cons k ks ih =>
      suffices hmodify : m.HasClasses before (here.modify k.index ({ · with kind := k.kind }))
          (there.modify (m.index k.index) ({ · with kind := k.kind })) from ih hmodify
      refine ⟨h.behind, ?_, ?_⟩
      · intro j hj
        rw [Array.getElem?_modify, if_neg]
        · exact h.kept j hj
        · exact fun heq => Nat.not_lt.2 (h.behind k.index) (heq ▸ hj)
      · -- no other token got to the index of the marked one
        intro i hi
        rw [Array.size_modify] at hi
        rw [Array.getElem?_modify, Array.getElem?_modify, h.moved i hi]
        by_cases heq : k.index = i
        · rw [if_pos heq, if_pos (congrArg m.index heq)]
        · rw [if_neg heq, if_neg fun h => heq (m.injective _ _ h)]

end Relocation.HasClasses

/-! ## §2. One reading follows the other. -/

namespace Reading

/-- Whether the reading `there` has what the reading `here` has, relocated, behind
what `before` has. -/
structure Follows (m : Relocation) (before here there : Reading) : Prop where
  forms : there.forms = here.forms.map (Sexp.relocated m) ++ before.forms
  stack : there.stack = here.stack.map (OpenList.relocated m)
  flat : there.flat = here.flat.map (FlatList.relocated m)
  next : there.next = here.next
  classes : m.HasClasses before.classes here.classes there.classes

namespace Follows

section

variable {m : Relocation} {before here there : Reading}

theorem flat_none (h : Follows m before here there) (hf : here.flat = none) :
    there.flat = none := by
  rw [h.flat, hf]
  rfl

theorem flat_some (h : Follows m before here there) {f : FlatList} (hf : here.flat = some f) :
    there.flat = some (f.relocated m) := by
  rw [h.flat, hf]
  rfl

theorem stack_cons (h : Follows m before here there) {l : OpenList} {ls : List OpenList}
    (hs : here.stack = l :: ls) :
    there.stack = l.relocated m :: ls.map (OpenList.relocated m) := by
  rw [h.stack, hs]
  rfl

/-- Trivia that the other reading does not read. -/
theorem push_trivia (h : Follows m before here there) {t : Token} (hk : t.kind.isTrivia = true) :
    Follows m before here (there.push t) := by
  rw [Reading.push_trivia hk]
  exact ⟨h.forms, h.stack, h.flat, h.next, h.classes.push_there _⟩

theorem classed (h : Follows m before here there)
    (hsize : m.index here.classes.size = there.classes.size) (kind : Kind) (taint : Taint) :
    Follows m before (here.classed kind taint) (there.classed kind taint) :=
  ⟨h.forms, h.stack, h.flat, h.next, h.classes.push hsize _⟩

theorem add (h : Follows m before here there) (e : Sexp) :
    Follows m before (here.add e) (there.add (e.relocated m)) := by
  obtain ⟨forms, stack, flat, next, classes⟩ := here
  obtain ⟨forms', stack', flat', next', classes'⟩ := there
  obtain ⟨hforms, rfl, hflat, _, hclasses⟩ := h
  cases stack with
  | nil => exact ⟨congrArg (e.relocated m :: ·) hforms, rfl, hflat, rfl, hclasses⟩
  | cons l ls => exact ⟨hforms, rfl, hflat, rfl, hclasses⟩

/-- Closing a list recognises the same in both. -/
theorem close (h : Follows m before here there) (stop : Position) (closed : Bool) :
    Follows m before (here.close stop closed) (there.close (m.stopIf closed stop) closed) := by
  unfold Reading.close
  rw [h.stack]
  cases hs : here.stack with
  | nil => exact h
  | cons l ls =>
      have hreverse : (l.relocated m).elements.reverse
          = l.elements.reverse.map (Sexp.relocated m) := (List.map_reverse ..).symm
      simp only [List.map_cons]
      rw [hreverse, Recognition.ofList_relocated]
      have hopen : m.HasClasses before.classes
          (if closed || !ls.isEmpty then here.classes
            else mark here.classes [⟨l.index, .unclosedParen⟩])
          (if closed || !(ls.map (OpenList.relocated m)).isEmpty then there.classes
            else mark there.classes [⟨m.index l.index, .unclosedParen⟩]) := by
        rw [List.isEmpty_map]
        split
        · exact h.classes
        · exact h.classes.mark [⟨l.index, .unclosedParen⟩]
      have hmarks := hopen.mark (Recognition.ofList l.taint l.elements.reverse).marks
      have hbehind : Follows m before ⟨here.forms, ls, here.flat, here.next, _⟩
          ⟨there.forms, ls.map (OpenList.relocated m), there.flat, there.next, _⟩ :=
        ⟨h.forms, rfl, h.flat, h.next, hmarks⟩
      have hadd := hbehind.add (.list ⟨l.start, stop, closed, l.taint⟩
        (Recognition.ofList l.taint l.elements.reverse).role l.elements.reverse)
      rw [Sexp.relocated, Sexp.allRelocated_eq_map] at hadd
      exact hadd

theorem closeFlat (h : Follows m before here there) (f : FlatList) (stop : Position)
    (closed : Bool) :
    Follows m before (here.closeFlat f stop closed)
      (there.closeFlat (f.relocated m) (m.stopIf closed stop) closed) := by
  have hreverse : (f.relocated m).elements.reverse
      = f.elements.reverse.map (Sexp.relocated m) := (List.map_reverse ..).symm
  have hbehind : Follows m before { here with flat := none } { there with flat := none } :=
    ⟨h.forms, h.stack, rfl, h.next, h.classes⟩
  have hadd := hbehind.add (.list ⟨f.start, stop, closed, f.taint⟩ .plain f.elements.reverse)
  unfold Reading.closeFlat
  rw [hreverse]
  rw [Sexp.relocated, Sexp.allRelocated_eq_map] at hadd
  exact hadd

/-- **A token that both read.** -/
theorem push (h : Follows m before here there)
    (hsize : m.index here.classes.size = there.classes.size) (t : Token) :
    Follows m before (here.push t) (there.push (t.relocated m)) := by
  -- the next index here is taken to the next index there
  have hatom : ∀ taint, (Sexp.atom ⟨t, here.classes.size, taint⟩).relocated m
      = .atom ⟨t.relocated m, there.classes.size, taint⟩ := by
    intro taint
    rw [← hsize]
    rfl
  have hstep := here.step_push t
  generalize here.push t = here' at hstep
  cases hstep with
  | trivia hk =>
      rw [Reading.push_trivia (t := t.relocated m) hk]
      exact h.classed hsize _ _
  | operator hk hf =>
      rw [push_operator (t := t.relocated m) hk (h.flat_none hf), h.next]
      exact ⟨h.forms, h.stack, h.flat, rfl, h.classes.push hsize _⟩
  | atom hk hf =>
      rw [push_atomic (t := t.relocated m) hk (h.flat_none hf), h.next, ← hatom]
      exact (h.classed hsize _ _).add _
  | stray hk hf hs =>
      have hs' : there.stack = [] := by
        rw [h.stack, hs]
        rfl
      rw [push_closeParen_stray (t := t.relocated m) hk (h.flat_none hf) hs', ← hatom]
      exact (h.classed hsize _ _).add _
  | opens hk hf hlen =>
      have hlen' : (there.classed .openParen there.next).stack.length < maxDepth := by
        show there.stack.length < maxDepth
        rw [h.stack, List.length_map]
        exact hlen
      rw [push_openParen (t := t.relocated m) hk (h.flat_none hf), openList, if_pos hlen']
      refine ⟨h.forms, ?_, h.flat, h.next, h.next ▸ h.classes.push hsize _⟩
      show (⟨m.start t.start, there.classes.size, there.next, []⟩ : OpenList) :: there.stack = _
      rw [← hsize, h.next, h.stack]
      rfl
  | opensFlat hk hf hlen =>
      have hlen' : ¬ (there.classed .openParen there.next).stack.length < maxDepth := by
        show ¬ there.stack.length < maxDepth
        rw [h.stack, List.length_map]
        exact Nat.not_lt.2 hlen
      rw [push_openParen (t := t.relocated m) hk (h.flat_none hf), openList, if_neg hlen']
      refine ⟨h.forms, h.stack, ?_, h.next, h.next ▸ h.classes.push hsize _⟩
      show some (⟨m.start t.start, there.next, 0, []⟩ : FlatList) = _
      rw [h.next]
      rfl
  | closes l ls hk hf hs =>
      rw [push_closeParen (t := t.relocated m) hk (h.flat_none hf) (h.stack_cons hs)]
      exact (h.classed hsize .closeParen l.taint).close t.stop true
  | flatAtom f hk hf =>
      -- in a flat list a prefix operator is an atom like the others
      have hpush : there.push (t.relocated m) = { there.classed t.kind f.taint with
          flat := some { f.relocated m with
            elements := .atom ⟨t.relocated m, there.classes.size, f.taint⟩
              :: f.elements.map (Sexp.relocated m) } } :=
        hk.elim (push_atomic_flat (t := t.relocated m) · (h.flat_some hf))
          (push_operator_flat (t := t.relocated m) · (h.flat_some hf))
      rw [hpush, ← hatom]
      exact ⟨h.forms, h.stack, rfl, h.next, h.classes.push hsize _⟩
  | opensInner f hk hf =>
      rw [push_openParen_flat (t := t.relocated m) hk (h.flat_some hf)]
      exact ⟨h.forms, h.stack, rfl, h.next, h.classes.push hsize _⟩
  | closesInner f n hk hf hi =>
      rw [push_closeParen_inner (t := t.relocated m) hk (h.flat_some hf) hi]
      exact ⟨h.forms, h.stack, rfl, h.next, h.classes.push hsize _⟩
  | closesFlat f hk hf hi =>
      rw [push_closeParen_flat (t := t.relocated m) hk (h.flat_some hf) hi]
      exact (h.classed hsize .closeParen f.taint).closeFlat f t.stop true

/-- **Lists that are open at the end are closed in both.** -/
theorem closeAll (h : Follows m before here there) (p : Position) :
    Follows m before (here.closeAll p) (there.closeAll (m.rest p)) := by
  -- as many lists are closed there as here
  have hfold : ∀ (ls : List OpenList) {here there : Reading}, Follows m before here there →
      Follows m before (ls.foldl (fun r _ => r.close p false) here)
        ((ls.map (OpenList.relocated m)).foldl (fun r _ => r.close (m.rest p) false) there) := by
    intro ls
    induction ls with
    | nil => exact fun h => h
    | cons l ls ih => exact fun h => ih (h.close p false)
  unfold Reading.closeAll
  cases hf : here.flat with
  | none =>
      rw [h.flat_none hf]
      show Follows m before (here.stack.foldl _ here) (there.stack.foldl _ there)
      rw [h.stack]
      exact hfold _ h
  | some f =>
      rw [h.flat_some hf]
      have hclose := h.closeFlat f p false
      show Follows m before ((here.closeFlat f p false).stack.foldl _ _)
        ((there.closeFlat (f.relocated m) (m.rest p) false).stack.foldl _ _)
      rw [show (there.closeFlat (f.relocated m) (m.rest p) false).stack = _ from hclose.stack]
      exact hfold _ hclose

end

end Follows

/-- Every token gets a class. -/
theorem size_classes_push (r : Reading) (t : Token) :
    (r.push t).classes.size = r.classes.size + 1 := by
  have hstep := r.step_push t
  generalize r.push t = r' at hstep
  cases hstep with
  | trivia | operator | opens | opensFlat | flatAtom | opensInner | closesInner =>
      exact Array.size_push _
  | atom | stray =>
      rw [classes_add]
      exact Array.size_push _
  | closes =>
      rw [size_classes_close]
      exact Array.size_push _
  | closesFlat =>
      rw [closeFlat, classes_add]
      exact Array.size_push _

end Reading

/-! ## §3. Token lists. -/

/-- Whether `there` are the tokens `here`, relocated and perhaps with trivia between
them, if the first token would have the index `i` here and `j` there. -/
inductive Relocation.Spreads (m : Relocation) : Nat → Nat → List Token → List Token → Prop where
  | nil (i j : Nat) : m.Spreads i j [] []
  | trivia {i j : Nat} {here there : List Token} {t : Token} (hk : t.kind.isTrivia = true)
      (behind : m.Spreads i (j + 1) here there) : m.Spreads i j here (t :: there)
  | token {i j : Nat} {here there : List Token} {t : Token} (hi : m.index i = j)
      (behind : m.Spreads (i + 1) (j + 1) here there) :
      m.Spreads i j (t :: here) (t.relocated m :: there)

/-- All tokens relocated, with nothing between them. -/
theorem Relocation.spreads_map {m : Relocation} {i j : Nat} (ts : List Token)
    (h : ∀ k, m.index (i + k) = j + k) : m.Spreads i j ts (ts.map (Token.relocated m)) := by
  induction ts generalizing i j with
  | nil => exact .nil i j
  | cons t ts ih =>
      refine .token (h 0) (ih fun k => ?_)
      rw [Nat.add_right_comm, Nat.add_right_comm j]
      exact h (k + 1)

namespace Reading.Follows

variable {m : Relocation} {before here there : Reading}

/-- With nothing read here, and nothing in progress there. -/
theorem begin (hs : before.stack = []) (hf : before.flat = none) (hn : before.next = .none)
    (hm : ∀ i, before.classes.size ≤ m.index i) : Follows m before .begin before := by
  refine ⟨rfl, hs, hf, hn, hm, fun _ _ => rfl, ?_⟩
  intro i hi
  exact absurd hi (Nat.not_lt_zero i)

/-- **Reading the tokens again elsewhere follows reading them.** -/
theorem pushAll {ts us : List Token}
    (hts : m.Spreads here.classes.size there.classes.size ts us)
    (h : Follows m before here there) :
    Follows m before (here.pushAll ts) (there.pushAll us) := by
  generalize hi : here.classes.size = i at hts
  generalize hj : there.classes.size = j at hts
  induction hts generalizing here there with
  | nil => exact h
  | trivia hk _ ih =>
      refine ih (h.push_trivia hk) hi ?_
      rw [size_classes_push, hj]
  | token hindex _ ih =>
      refine ih (h.push ?_ _) ?_ ?_
      · rw [hi, hj, hindex]
      · rw [size_classes_push, hi]
      · rw [size_classes_push, hj]

/-- What one reading finds, the other one finds elsewhere. -/
theorem forms_finish (h : Follows m before here there) (p : Position) :
    (there.finish (m.rest p)).forms
      = before.forms.reverse ++ (here.finish p).forms.map (Sexp.relocated m) := by
  show (there.closeAll (m.rest p)).forms.reverse = _
  rw [(h.closeAll p).forms, List.reverse_append, ← List.map_reverse]
  rfl

theorem classes_finish (h : Follows m before here there) (p : Position) :
    (∀ k < before.classes.size,
        (there.finish (m.rest p)).classes[k]? = before.classes[k]?)
      ∧ ∀ i < (here.finish p).classes.length,
        (there.finish (m.rest p)).classes[m.index i]? = (here.finish p).classes[i]? := by
  have hclasses := (h.closeAll p).classes
  simp only [finish, Array.getElem?_toList, Array.length_toList]
  exact ⟨hclasses.kept, hclasses.moved⟩

end Reading.Follows

/-- **What is read of tokens is read of them again elsewhere**, with trivia between
them, and every token has the same class. -/
theorem read_relocated {m : Relocation} {ts us : List Token} (hts : m.Spreads 0 0 ts us)
    (hstop : stopOf us = m.rest (stopOf ts)) :
    (read us).forms = (read ts).forms.map (Sexp.relocated m)
      ∧ ∀ i < ts.length, (read us).classes[m.index i]? = (read ts).classes[i]? := by
  have hbegin : Reading.Follows m .begin .begin .begin := .begin rfl rfl rfl fun _ => Nat.zero_le _
  have h := hbegin.pushAll hts
  unfold read
  rw [hstop]
  refine ⟨h.forms_finish _, ?_⟩
  have hlength : (read ts).classes.length = ts.length := length_classes_read ts
  rw [← hlength]
  exact (h.classes_finish _).2

end LispLink.Source
