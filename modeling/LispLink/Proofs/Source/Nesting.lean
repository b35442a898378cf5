/-
  LispLink.Proofs.Source.Nesting
  ────────────────────────────────
  **HOW DEEP A TOKEN LIST IS NESTED.**

  `nesting ts` counts the parens that are open behind the tokens; a close paren
  with none open is skipped.  A reading is always as deep as its tokens are
  nested:

      depth (begin.pushAll ts)  =  nesting ts

  where the lists on the stack count once each, and so do a list that is read
  flat and the parens that are open inside it.  The stack is never deeper than
  `maxDepth`, and a list is read flat exactly on top of a stack that deep.
-/
import LispLink.Proofs.Source.Forms

namespace LispLink.Source

/-! ## §1. Counting parens. -/

/-- The number of parens that are open behind a token of this kind, if `n` are
open before it. -/
def Kind.nest (n : Nat) : Kind → Nat
  | openParen => n + 1
  | closeParen => n - 1
  | _ => n

theorem Kind.nest_of_not_isParen {k : Kind} (h : k.isParen = false) (n : Nat) : k.nest n = n := by
  cases k <;> first | rfl | cases h

/-- The number of parens that are open behind the tokens, if `n` are open before
them. -/
def nestingFrom (n : Nat) (ts : List Token) : Nat := ts.foldl (fun n t => t.kind.nest n) n

/-- The number of parens that are open behind the tokens of a text. -/
def nesting (ts : List Token) : Nat := nestingFrom 0 ts

@[simp] theorem nestingFrom_nil (n : Nat) : nestingFrom n [] = n := rfl

@[simp] theorem nestingFrom_cons (n : Nat) (t : Token) (ts : List Token) :
    nestingFrom n (t :: ts) = nestingFrom (t.kind.nest n) ts := rfl

theorem nesting_concat (ts : List Token) (t : Token) :
    nesting (ts ++ [t]) = t.kind.nest (nesting ts) := by
  simp [nesting, nestingFrom]

/-- Nesting along a token list: a place in the list with one more token is a place
in the list before, or behind its last token. -/
theorem nesting_take_concat {ts : List Token} {i : Nat} (t : Token) (h : i ≤ ts.length) :
    nesting ((ts ++ [t]).take i) = nesting (ts.take i) := by
  rw [List.take_append_of_le_length h]

/-- A token of a list with one more token is the last one or was in it before. -/
theorem getElem?_concat_cases {ts : List Token} {t u : Token} {i : Nat}
    (h : (ts ++ [t])[i]? = some u) :
    (i < ts.length ∧ ts[i]? = some u) ∨ (i = ts.length ∧ u = t) := by
  have hlt := (List.getElem?_eq_some_iff.1 h).1
  rw [List.length_append, List.length_singleton] at hlt
  rcases Nat.lt_succ_iff_lt_or_eq.1 hlt with hi | rfl
  · rw [List.getElem?_append_left hi] at h
    exact .inl ⟨hi, h⟩
  · rw [List.getElem?_concat_length] at h
    exact .inr ⟨rfl, (Option.some.inj h).symm⟩

/-! ## §2. The depth of a reading. -/

namespace Reading

/-- How deep a reading is inside the list that it reads flat. -/
def flatDepth (r : Reading) : Nat :=
  match r.flat with
  | none => 0
  | some f => f.inner + 1

/-- How deep a reading is inside lists and parens. -/
def depth (r : Reading) : Nat := r.stack.length + r.flatDepth

/-- Whether the cap on nesting is kept. -/
structure IsCapped (r : Reading) : Prop where
  stack_le : r.stack.length ≤ maxDepth
  flat_at : ∀ f, r.flat = some f → r.stack.length = maxDepth

theorem flatDepth_of_none {r : Reading} (hf : r.flat = none) : r.flatDepth = 0 := by
  rw [flatDepth, hf]

theorem flatDepth_of_some {r : Reading} {f : FlatList} (hf : r.flat = some f) :
    r.flatDepth = f.inner + 1 := by
  rw [flatDepth, hf]

/-- A reading is at the top level exactly if no paren is open. -/
theorem depth_eq_zero_iff (r : Reading) : r.depth = 0 ↔ r.stack = [] ∧ r.flat = none := by
  unfold depth
  rw [Nat.add_eq_zero_iff, List.length_eq_zero_iff]
  cases hf : r.flat with
  | none => simp [flatDepth_of_none hf]
  | some f => simp [flatDepth_of_some hf]

theorem depth_ne_zero_of_some {r : Reading} {f : FlatList} (hf : r.flat = some f) :
    r.depth ≠ 0 := by
  intro hzero
  rw [depth_eq_zero_iff, hf] at hzero
  cases hzero.2

theorem isCapped_of_none {r : Reading} (hle : r.stack.length ≤ maxDepth) (hf : r.flat = none) :
    r.IsCapped := by
  refine ⟨hle, ?_⟩
  intro f hf'
  rw [hf] at hf'
  cases hf'

/-! ## §3. Complete expressions. -/

section

variable (r : Reading) (e : Sexp)

@[simp] theorem classes_add : (r.add e).classes = r.classes := by
  unfold add
  cases r.stack <;> rfl

@[simp] theorem length_stack_add : (r.add e).stack.length = r.stack.length := by
  unfold add
  cases r.stack <;> rfl

theorem depth_add : (r.add e).depth = r.depth := by
  unfold depth flatDepth
  rw [length_stack_add, flat_add]

variable {r} in
theorem isCapped_add (h : r.IsCapped) : (r.add e).IsCapped := by
  refine ⟨?_, ?_⟩
  · rw [length_stack_add]
    exact h.stack_le
  · intro f hf
    rw [flat_add] at hf
    rw [length_stack_add]
    exact h.flat_at f hf

@[simp] theorem size_mark (classes : Array TokenClass) (marks : List Mark) :
    (mark classes marks).size = classes.size := by
  induction marks generalizing classes with
  | nil => rfl
  | cons m ms ih =>
      show (mark (classes.modify m.index _) ms).size = _
      rw [ih, Array.size_modify]

@[simp] theorem size_classes_close (stop : Position) (closed : Bool) :
    (r.close stop closed).classes.size = r.classes.size := by
  unfold close
  cases r.stack with
  | nil => rfl
  | cons l ls =>
      rw [classes_add]
      show (mark _ _).size = _
      rw [size_mark]
      split
      · rfl
      · exact size_mark _ _

theorem length_stack_close (stop : Position) (closed : Bool) :
    (r.close stop closed).stack.length = r.stack.length - 1 := by
  unfold close
  cases hs : r.stack with
  | nil =>
      rw [hs]
      rfl
  | cons l ls =>
      rw [length_stack_add]
      rfl

end

section

variable {r : Reading}

theorem depth_close (hf : r.flat = none) (stop : Position) (closed : Bool) :
    (r.close stop closed).depth = r.depth - 1 := by
  have hf' : (r.close stop closed).flat = none := (flat_close r stop closed).trans hf
  unfold depth
  rw [length_stack_close, flatDepth_of_none hf, flatDepth_of_none hf']
  rfl

theorem isCapped_close (h : r.IsCapped) (hf : r.flat = none) (stop : Position) (closed : Bool) :
    (r.close stop closed).IsCapped := by
  refine isCapped_of_none ?_ ((flat_close r stop closed).trans hf)
  have hle := h.stack_le
  rw [length_stack_close]
  omega

/-- A flat list without open parens inside is one level. -/
theorem depth_closeFlat {f : FlatList} (hf : r.flat = some f) (hi : f.inner = 0) (stop : Position)
    (closed : Bool) : (r.closeFlat f stop closed).depth = r.depth - 1 := by
  have hdepth : (r.closeFlat f stop closed).depth = r.stack.length := depth_add _ _
  unfold depth at hdepth ⊢
  rw [hdepth, flatDepth_of_some hf, hi]
  rfl

theorem isCapped_closeFlat (h : r.IsCapped) (f : FlatList) (stop : Position) (closed : Bool) :
    (r.closeFlat f stop closed).IsCapped :=
  isCapped_add _ (isCapped_of_none h.stack_le rfl)

end

/-! ## §4. Every token. -/

theorem isCapped_begin : begin.IsCapped := isCapped_of_none (Nat.zero_le _) rfl

/-- **A token nests a reading as it nests the text, and gets its class.** -/
theorem depth_step {r r' : Reading} {t : Token} (hstep : Step r t r') (h : r.IsCapped) :
    r'.IsCapped ∧ r'.depth = t.kind.nest r.depth ∧ r'.classes.size = r.classes.size + 1 := by
  have hclassed : ∀ kind taint, (r.classed kind taint).IsCapped := fun _ _ =>
    ⟨h.stack_le, h.flat_at⟩
  cases hstep with
  | trivia hk =>
      rw [Kind.nest_of_not_isParen (Kind.isParen_of_isTrivia hk)]
      exact ⟨hclassed _ _, rfl, Array.size_push _⟩
  | operator hk hf =>
      rw [Kind.nest_of_not_isParen (Kind.isParen_of_isOperator hk)]
      exact ⟨⟨h.stack_le, h.flat_at⟩, rfl, Array.size_push _⟩
  | atom hk hf =>
      rw [Kind.nest_of_not_isParen (Kind.isParen_of_isAtomic hk), classes_add]
      exact ⟨isCapped_add _ (hclassed _ _), depth_add _ _, Array.size_push _⟩
  | stray hk hf hs =>
      -- there is nothing to close
      have hzero : r.depth = 0 := (depth_eq_zero_iff r).2 ⟨hs, hf⟩
      rw [hk, classes_add]
      refine ⟨isCapped_add _ (hclassed _ _), ?_, Array.size_push _⟩
      rw [depth_add, hzero]
      exact hzero
  | opens hk hf hlen =>
      rw [hk]
      refine ⟨isCapped_of_none hlen hf, ?_, Array.size_push _⟩
      show r.stack.length + 1 + r.flatDepth = r.depth + 1
      unfold depth
      omega
  | closes l ls hk hf hs =>
      rw [hk, size_classes_close]
      refine ⟨isCapped_close (hclassed _ _) hf _ _, ?_, Array.size_push _⟩
      exact depth_close (r := r.classed .closeParen l.taint) hf t.stop true
  | opensFlat hk hf hlen =>
      rw [hk]
      have hfull : r.stack.length = maxDepth := Nat.le_antisymm h.stack_le hlen
      refine ⟨⟨h.stack_le, fun _ _ => hfull⟩, ?_, Array.size_push _⟩
      show r.stack.length + 1 = r.depth + 1
      rw [depth, flatDepth_of_none hf, Nat.add_zero]
  | flatAtom f hk hf =>
      have hparen : t.kind.isParen = false :=
        hk.elim Kind.isParen_of_isAtomic Kind.isParen_of_isOperator
      rw [Kind.nest_of_not_isParen hparen]
      refine ⟨⟨h.stack_le, fun _ _ => h.flat_at f hf⟩, ?_, Array.size_push _⟩
      rw [depth, depth, flatDepth_of_some hf]
      rfl
  | opensInner f hk hf =>
      rw [hk]
      refine ⟨⟨h.stack_le, fun _ _ => h.flat_at f hf⟩, ?_, Array.size_push _⟩
      show r.stack.length + (f.inner + 1 + 1) = r.depth + 1
      rw [depth, flatDepth_of_some hf]
      rfl
  | closesInner f n hk hf hi =>
      rw [hk]
      refine ⟨⟨h.stack_le, fun _ _ => h.flat_at f hf⟩, ?_, Array.size_push _⟩
      show r.stack.length + (n + 1) = r.depth - 1
      rw [depth, flatDepth_of_some hf, hi]
      rfl
  | closesFlat f hk hf hi =>
      rw [hk]
      refine ⟨isCapped_closeFlat (hclassed _ _) f _ _, ?_, ?_⟩
      · exact depth_closeFlat (r := r.classed .closeParen f.taint) hf hi t.stop true
      · rw [closeFlat, classes_add]
        exact Array.size_push _

/-- **A reading is as deep as its tokens are nested**, whatever it has read
before. -/
theorem depth_pushAll {r : Reading} (h : r.IsCapped) (ts : List Token) :
    (r.pushAll ts).IsCapped ∧ (r.pushAll ts).depth = nestingFrom r.depth ts
      ∧ (r.pushAll ts).classes.size = r.classes.size + ts.length := by
  induction ts generalizing r with
  | nil => exact ⟨h, rfl, rfl⟩
  | cons t ts ih =>
      obtain ⟨hcapped, hdepth, hsize⟩ := depth_step (r.step_push t) h
      obtain ⟨hcapped', hdepth', hsize'⟩ := ih hcapped
      rw [pushAll_cons, nestingFrom_cons, ← hdepth]
      refine ⟨hcapped', hdepth', ?_⟩
      rw [hsize', hsize, List.length_cons]
      omega

theorem size_classes_pushAll (ts : List Token) : (begin.pushAll ts).classes.size = ts.length :=
  (depth_pushAll isCapped_begin ts).2.2.trans (Nat.zero_add _)

end Reading

end LispLink.Source
