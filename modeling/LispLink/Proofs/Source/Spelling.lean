/-
  LispLink.Proofs.Source.Spelling
  ────────────────────────────────
  **READING IN LOWER CASE.**

  Reading goes by kinds and places, which lower case leaves alone, and recognition
  commutes with it.  So at every token a reading of the text in lower case is the
  reading of the text, in lower case, with the very same classes:

      read (tokens in lower case)  =  the forms in lower case, the same classes

  Two texts that differ in the case of ASCII letters only have the same lower case,
  and so they are read alike (`read_lowered`).
-/
import LispLink.Proofs.Source.Grammar
import LispLink.Proofs.Source.Letters

namespace LispLink.Source

/-! ## §1. Readings in lower case. -/

def OpenList.lowered (l : OpenList) : OpenList :=
  { l with elements := l.elements.map (Sexp.altered lowering) }

def FlatList.lowered (f : FlatList) : FlatList :=
  { f with elements := f.elements.map (Sexp.altered lowering) }

/-- Marks are put on tokens by index, whatever their spelling. -/
theorem Mark.altered_lowering (marks : List Mark) : marks.map (Mark.altered lowering) = marks :=
  List.map_id marks

namespace Reading

/-- All that is read so far in lower case; the classes know no spelling. -/
def lowered (r : Reading) : Reading :=
  ⟨r.forms.map (Sexp.altered lowering), r.stack.map OpenList.lowered,
    r.flat.map FlatList.lowered, r.next, r.classes⟩

section

variable {r : Reading}

theorem flat_lowered_none (hf : r.flat = none) : r.lowered.flat = none := by
  show r.flat.map _ = none
  rw [hf]
  rfl

theorem flat_lowered_some {f : FlatList} (hf : r.flat = some f) :
    r.lowered.flat = some f.lowered := by
  show r.flat.map _ = _
  rw [hf]
  rfl

theorem length_stack_lowered (r : Reading) : r.lowered.stack.length = r.stack.length :=
  List.length_map _

theorem add_lowered (r : Reading) (e : Sexp) :
    r.lowered.add (e.altered lowering) = (r.add e).lowered := by
  obtain ⟨forms, stack, flat, next, classes⟩ := r
  cases stack <;> rfl

theorem list_lowered (o : Outline) (role : Role) (es : List Sexp) :
    (Sexp.list o role es.reverse).altered lowering
      = .list o (role.altered lowering) (es.map (Sexp.altered lowering)).reverse := by
  rw [Sexp.altered, Sexp.allAltered_eq_map, List.map_reverse]
  rfl

/-- **What a list does is recognised in lower case as well.** -/
theorem close_lowered (r : Reading) (stop : Position) (closed : Bool) :
    r.lowered.close stop closed = (r.close stop closed).lowered := by
  obtain ⟨forms, stack, flat, next, classes⟩ := r
  cases stack with
  | nil => rfl
  | cons l ls =>
      have hfound : Recognition.ofList l.taint (l.elements.map (Sexp.altered lowering)).reverse
          = (Recognition.ofList l.taint l.elements.reverse).altered lowering := by
        rw [← List.map_reverse, Recognition.ofList_altered]
      have hempty : (ls.map OpenList.lowered).isEmpty = ls.isEmpty := List.isEmpty_map
      simp only [close, ← add_lowered, list_lowered]
      simp only [lowered, List.map_cons, OpenList.lowered, hfound, hempty, Recognition.altered,
        Mark.altered_lowering]

theorem closeFlat_lowered (r : Reading) (f : FlatList) (stop : Position) (closed : Bool) :
    r.lowered.closeFlat f.lowered stop closed = (r.closeFlat f stop closed).lowered := by
  unfold closeFlat
  rw [← add_lowered, list_lowered]
  rfl

/-- **A token in lower case is read as the token is.** -/
theorem push_lowered (r : Reading) (t : Token) :
    r.lowered.push (t.altered lowering) = (r.push t).lowered := by
  have hstep := r.step_push t
  generalize r.push t = r' at hstep
  cases hstep with
  | trivia hk => exact push_trivia (t := t.altered lowering) hk
  | operator hk hf => exact push_operator (t := t.altered lowering) hk (flat_lowered_none hf)
  | atom hk hf =>
      rw [push_atomic (t := t.altered lowering) hk (flat_lowered_none hf), ← add_lowered]
      rfl
  | stray hk hf hs =>
      have hs' : r.lowered.stack = [] := by
        show r.stack.map _ = []
        rw [hs]
        rfl
      rw [push_closeParen_stray (t := t.altered lowering) hk (flat_lowered_none hf) hs',
        ← add_lowered]
      rfl
  | opens hk hf hlen =>
      rw [push_openParen (t := t.altered lowering) hk (flat_lowered_none hf)]
      exact if_pos ((length_stack_lowered r).symm ▸ hlen)
  | opensFlat hk hf hlen =>
      rw [push_openParen (t := t.altered lowering) hk (flat_lowered_none hf)]
      exact if_neg (Nat.not_lt.2 ((length_stack_lowered r).symm ▸ hlen))
  | closes l ls hk hf hs =>
      have hs' : r.lowered.stack = l.lowered :: ls.map OpenList.lowered := by
        show r.stack.map _ = _
        rw [hs]
        rfl
      rw [push_closeParen (t := t.altered lowering) hk (flat_lowered_none hf) hs',
        ← close_lowered]
      rfl
  | flatAtom f hk hf =>
      have hf' := flat_lowered_some hf
      exact hk.elim (push_atomic_flat (t := t.altered lowering) · hf')
        (push_operator_flat (t := t.altered lowering) · hf')
  | opensInner f hk hf =>
      exact push_openParen_flat (t := t.altered lowering) hk (flat_lowered_some hf)
  | closesInner f n hk hf hi =>
      exact push_closeParen_inner (t := t.altered lowering) hk (flat_lowered_some hf) hi
  | closesFlat f hk hf hi =>
      rw [push_closeParen_flat (t := t.altered lowering) hk (flat_lowered_some hf) hi,
        ← closeFlat_lowered]
      rfl

theorem pushAll_lowered (r : Reading) (ts : List Token) :
    r.lowered.pushAll (ts.map (Token.altered lowering)) = (r.pushAll ts).lowered := by
  induction ts generalizing r with
  | nil => rfl
  | cons t ts ih =>
      rw [List.map_cons, pushAll_cons, pushAll_cons, push_lowered, ih]

/-- Closing what is open at the end of the text. -/
theorem closeAll_lowered (r : Reading) (stop : Position) :
    r.lowered.closeAll stop = (r.closeAll stop).lowered := by
  have hfold : ∀ (ls : List OpenList) (r : Reading),
      (ls.map OpenList.lowered).foldl (fun r _ => r.close stop false) r.lowered
        = (ls.foldl (fun r _ => r.close stop false) r).lowered := by
    intro ls
    induction ls with
    | nil => exact fun r => rfl
    | cons l ls ih =>
        intro r
        rw [List.map_cons, List.foldl_cons, List.foldl_cons, close_lowered, ih]
  unfold closeAll
  cases hf : r.flat with
  | none =>
      rw [flat_lowered_none hf]
      exact hfold _ r
  | some f =>
      rw [flat_lowered_some hf]
      show (r.lowered.closeFlat f.lowered stop false).stack.foldl _
        (r.lowered.closeFlat f.lowered stop false) = _
      rw [closeFlat_lowered]
      exact hfold _ _

end

end Reading

/-! ## §2. Texts in lower case. -/

theorem stopOf_lowered (ts : List Token) :
    stopOf (ts.map (Token.altered lowering)) = stopOf ts := by
  unfold stopOf
  rw [List.getLast?_map]
  cases ts.getLast? <;> rfl

/-- **Tokens in lower case are read as the tokens are**, and have the same classes. -/
theorem read_lowered (ts : List Token) :
    read (ts.map (Token.altered lowering))
      = ⟨(read ts).forms.map (Sexp.altered lowering), (read ts).classes⟩ := by
  have hbegin : Reading.begin.lowered = Reading.begin := rfl
  unfold read Reading.finish
  rw [stopOf_lowered, ← hbegin, Reading.pushAll_lowered, Reading.closeAll_lowered]
  simp only [Reading.lowered, List.map_reverse]
  rfl

mutual

/-- The expressions inside an expression in lower case are those inside it. -/
theorem Sexp.nodes_altered {α : Alteration} (e : Sexp) :
    (e.altered α).nodes = e.nodes.map (Sexp.altered α) := by
  cases e with
  | atom a => rfl
  | list o role es =>
      rw [altered, nodes, nodes, List.map_cons, altered, allAltered_eq_map,
        Sexp.allNodes_altered es]

theorem Sexp.allNodes_altered {α : Alteration} (es : List Sexp) :
    allNodes (es.map (Sexp.altered α)) = (allNodes es).map (Sexp.altered α) := by
  cases es with
  | nil => rfl
  | cons e es =>
      rw [List.map_cons, allNodes, allNodes, List.map_append, Sexp.nodes_altered e,
        Sexp.allNodes_altered es]

end

end LispLink.Source
