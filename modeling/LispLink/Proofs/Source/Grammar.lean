/-
  LispLink.Proofs.Source.Grammar
  ────────────────────────────────
  **WHAT TOKENS ARE READ AS, RULE BY RULE.**

  A row is what stands at the top level of a text or inside one list: expressions,
  each behind the trivia and prefix operators that lead to it.  The rules say
  which tokens make up a row, what they are read as, how deep it is, and which
  taint every token and every expression has:

      row   ::=  ε  |  row lead atom  |  row lead ( row lead )
      lead  ::=  ε  |  lead trivia    |  lead operator

  A list goes on to the partner of its paren, or to the end of the text if the
  paren has none.  At `maxDepth` the inside of a list is no row but a flat one, in
  which only parens are counted.

  Reading a token list follows these rules (`row_read`).  While it goes on, the
  open lists are rows whose end is not known yet (`Opened`).
-/
import LispLink.Proofs.Source.Matching
import LispLink.Proofs.Source.Walk

namespace LispLink.Source

/-! ## §1. Partners. -/

theorem nesting_take_succ {ts : List Token} {i : Nat} {t : Token} (h : ts[i]? = some t) :
    nesting (ts.take (i + 1)) = t.kind.nest (nesting (ts.take i)) := by
  rw [List.take_add_one, h]
  exact nesting_concat _ _

/-- Whether tokens `i` and `j` are parens and the second closes the first: between
them more parens are open than before the first, and behind the second as many. -/
structure ArePartners (ts : List Token) (i j : Nat) : Prop where
  opens : ∃ t, ts[i]? = some t ∧ t.kind = .openParen
  closes : ∃ t, ts[j]? = some t ∧ t.kind = .closeParen
  lt : i < j
  inside : ∀ k, i < k → k ≤ j → nesting (ts.take i) < nesting (ts.take k)
  outside : nesting (ts.take (j + 1)) = nesting (ts.take i)

/-- Whether token `i` is an open paren inside `d` others that no token before place
`n` closes. -/
structure IsOpenUpTo (ts : List Token) (n d i : Nat) : Prop where
  opens : ∃ t, ts[i]? = some t ∧ t.kind = .openParen
  level : nesting (ts.take i) = d
  inside : ∀ k, i < k → k ≤ n → nesting (ts.take i) < nesting (ts.take k)

namespace IsOpenUpTo

variable {ts : List Token} {n d i : Nat}

/-- A paren just read is open. -/
theorem new {t : Token} (ht : ts[n]? = some t) (hk : t.kind = .openParen)
    (hn : nesting (ts.take n) = d) : IsOpenUpTo ts (n + 1) d n := by
  refine ⟨⟨t, ht, hk⟩, hn, ?_⟩
  intro k hik hk'
  obtain rfl : k = n + 1 := by omega
  rw [nesting_take_succ ht, hk]
  exact Nat.lt_succ_self _

theorem succ (h : IsOpenUpTo ts n d i) (hn : d < nesting (ts.take (n + 1))) :
    IsOpenUpTo ts (n + 1) d i := by
  refine ⟨h.opens, h.level, ?_⟩
  intro k hik hk
  rcases Nat.le_succ_iff.1 hk with hk | rfl
  · exact h.inside k hik hk
  · rw [h.level]
    exact hn

theorem arePartners (h : IsOpenUpTo ts n d i) (hlt : i < n) {t : Token} (ht : ts[n]? = some t)
    (hk : t.kind = .closeParen) (hn : nesting (ts.take (n + 1)) = d) : ArePartners ts i n :=
  ⟨h.opens, ⟨t, ht, hk⟩, hlt, h.inside, hn.trans h.level.symm⟩

theorem staysOpen (h : IsOpenUpTo ts ts.length d i) : StaysOpen ts i := ⟨h.opens, h.inside⟩

end IsOpenUpTo

/-! ## §2. The rules. -/

section

variable (ts : List Token) (us : List Taint)

/-- Whether `t` is the token with index `i`, and `u` the taint of its class. -/
def TokenAt (i : Nat) (t : Token) (u : Taint) : Prop := ts[i]? = some t ∧ us[i]? = some u

/-- From token `i` up to token `j` there are only trivia, which is code, and prefix
operators.  An operator has the taint that was reached before it, and changes it;
so the taint goes from `t` to `u`. -/
inductive Lead (i : Nat) (t : Taint) : Nat → Taint → Prop where
  | start : Lead i t i t
  | trivia {j : Nat} {u : Taint} {x : Token} (before : Lead i t j u) (hx : TokenAt ts us j x .none)
      (hk : x.kind.isTrivia = true) : Lead i t (j + 1) u
  | operator {j : Nat} {u : Taint} {x : Token} (before : Lead i t j u) (hx : TokenAt ts us j x u)
      (hk : x.kind.isOperator = true) : Lead i t (j + 1) (u.under x.kind)

/-- The tokens from `i` up to `j` inside a list that is read flat, with the taint
`u` of this list: whatever is no trivia and no paren is an element of it, a prefix
operator like any other. -/
inductive FlatRow (u : Taint) (i : Nat) : Nat → List Sexp → Prop where
  | nil : FlatRow u i i []
  | trivia {j : Nat} {es : List Sexp} {x : Token} (before : FlatRow u i j es)
      (hx : TokenAt ts us j x .none) (hk : x.kind.isTrivia = true) : FlatRow u i (j + 1) es
  | paren {j : Nat} {es : List Sexp} {x : Token} (before : FlatRow u i j es)
      (hx : TokenAt ts us j x u) (hk : x.kind.isParen = true) : FlatRow u i (j + 1) es
  | atom {j : Nat} {es : List Sexp} {x : Token} (before : FlatRow u i j es)
      (hx : TokenAt ts us j x u) (hk : x.kind.isAtomic = true ∨ x.kind.isOperator = true) :
      FlatRow u i (j + 1) (es ++ [.atom ⟨x, j, u⟩])

/-- Where a list ends that has the taint `u`, if its open paren is token `i` and
what is inside goes up to token `n`: behind the partner of the paren, which has the
same taint, or with the text. -/
inductive Ends (i : Nat) (u : Taint) (n : Nat) : Nat → Position → Bool → Prop where
  | closed {y : Token} (hy : TokenAt ts us n y u) (h : ArePartners ts i n) :
      Ends i u n (n + 1) y.stop true
  | unclosed (hn : n = ts.length) (h : StaysOpen ts i) : Ends i u n ts.length (stopOf ts) false

/-- The tokens from `i` up to `j`, inside `d` lists the innermost of which has the
taint `t`, are read as `es`. -/
inductive Row : Nat → Taint → Nat → Nat → List Sexp → Prop where
  | nil (d : Nat) (t : Taint) (i : Nat) : Row d t i i []
  /-- An atom has the taint that its operators lead to. -/
  | atom {d i j k : Nat} {t u : Taint} {es : List Sexp} {x : Token}
      (before : Row d t i j es) (lead : Lead ts us j t k u) (hx : TokenAt ts us k x u)
      (hk : x.kind.isAtomic = true) : Row d t i (k + 1) (es ++ [.atom ⟨x, k, u⟩])
  /-- A close paren with nothing to close is code, whatever stands before it. -/
  | stray {i j k : Nat} {t u : Taint} {es : List Sexp} {x : Token}
      (before : Row 0 t i j es) (lead : Lead ts us j t k u) (hx : TokenAt ts us k x .none)
      (hk : x.kind = .closeParen) (hn : nesting (ts.take k) = 0) :
      Row 0 t i (k + 1) (es ++ [.atom ⟨x, k, .none⟩])
  /-- A list has the taint that its operators lead to, and its role is what
  recognition finds in its elements. -/
  | list {d i j k m n q : Nat} {t u v : Taint} {es inner : List Sexp} {x : Token}
      {stop : Position} {closed : Bool} (before : Row d t i j es) (lead : Lead ts us j t k u)
      (hd : d < maxDepth) (hx : TokenAt ts us k x u) (hk : x.kind = .openParen)
      (inside : Row (d + 1) u (k + 1) m inner) (trail : Lead ts us m u n v)
      (ends : Ends ts us k u n q stop closed) :
      Row d t i q (es ++
        [.list ⟨x.start, stop, closed, u⟩ (Recognition.ofList u inner).role inner])
  /-- Inside as many lists as are read as trees, a list is read flat. -/
  | flat {i j k n q : Nat} {t u : Taint} {es inner : List Sexp} {x : Token}
      {stop : Position} {closed : Bool} (before : Row maxDepth t i j es)
      (lead : Lead ts us j t k u) (hx : TokenAt ts us k x u) (hk : x.kind = .openParen)
      (inside : FlatRow ts us u (k + 1) n inner) (ends : Ends ts us k u n q stop closed) :
      Row maxDepth t i q (es ++ [.list ⟨x.start, stop, closed, u⟩ .plain inner])

end

section

variable {ts : List Token} {us : List Taint}

theorem Lead.le {i j : Nat} {t u : Taint} (h : Lead ts us i t j u) : i ≤ j := by
  induction h with
  | start => exact Nat.le_refl _
  | trivia _ _ _ ih | operator _ _ _ ih => exact Nat.le_succ_of_le ih

theorem FlatRow.le {u : Taint} {i j : Nat} {es : List Sexp} (h : FlatRow ts us u i j es) :
    i ≤ j := by
  induction h with
  | nil => exact Nat.le_refl _
  | trivia _ _ _ ih | paren _ _ _ ih | atom _ _ _ ih => exact Nat.le_succ_of_le ih

theorem Ends.le {i n q : Nat} {u : Taint} {stop : Position} {closed : Bool}
    (h : Ends ts us i u n q stop closed) : n ≤ q := by
  cases h with
  | closed => exact Nat.le_succ n
  | unclosed hn => exact Nat.le_of_eq hn

theorem Row.le {d i j : Nat} {t : Taint} {es : List Sexp} (h : Row ts us d t i j es) : i ≤ j := by
  induction h with
  | nil => exact Nat.le_refl _
  | atom _ lead _ _ ih | stray _ lead _ _ _ ih =>
      have := lead.le
      omega
  | list _ lead _ _ _ _ trail ends ih ihInside =>
      have := lead.le
      have := trail.le
      have := ends.le
      omega
  | flat _ lead _ _ inside ends ih =>
      have := lead.le
      have := inside.le
      have := ends.le
      omega

end

/-! ## §3. Taints of classes. -/

namespace Reading

/-- The taints of the classes given so far. -/
def taints (r : Reading) : List Taint := r.classes.toList.map TokenClass.taint

@[simp] theorem length_taints (r : Reading) : r.taints.length = r.classes.size := by
  simp [taints]

@[simp] theorem taints_classed (r : Reading) (kind : Kind) (u : Taint) :
    (r.classed kind u).taints = r.taints ++ [u] := by
  simp [taints, classed]

@[simp] theorem taints_add (r : Reading) (e : Sexp) : (r.add e).taints = r.taints := by
  rw [taints, classes_add]
  rfl

/-- Marks change kinds only. -/
theorem map_taint_mark (classes : Array TokenClass) (marks : List Mark) :
    (mark classes marks).toList.map TokenClass.taint = classes.toList.map TokenClass.taint := by
  induction marks generalizing classes with
  | nil => rfl
  | cons m ms ih =>
      show (mark (classes.modify m.index ({ · with kind := m.kind })) ms).toList.map _ = _
      rw [ih]
      refine List.ext_getElem? fun i => ?_
      rw [List.getElem?_map, List.getElem?_map, Array.getElem?_toList, Array.getElem?_toList,
        Array.getElem?_modify]
      split
      · cases classes[i]? <;> rfl
      · rfl

@[simp] theorem taints_close (r : Reading) (stop : Position) (closed : Bool) :
    (r.close stop closed).taints = r.taints := by
  unfold close
  cases r.stack with
  | nil => rfl
  | cons l ls =>
      rw [taints_add]
      show (mark _ _).toList.map TokenClass.taint = _
      rw [map_taint_mark]
      split
      · rfl
      · exact map_taint_mark _ _

/-- A token adds the taint of its class, and the others stay what they are. -/
theorem taints_push (r : Reading) (t : Token) : ∃ u, (r.push t).taints = r.taints ++ [u] := by
  have h := r.step_push t
  generalize r.push t = r' at h
  cases h with
  | trivia | opens | opensFlat | opensInner | closesInner | flatAtom | operator =>
      exact ⟨_, taints_classed _ _ _⟩
  | atom | stray => exact ⟨_, (taints_add _ _).trans (taints_classed _ _ _)⟩
  | closes => exact ⟨_, (taints_close _ _ _).trans (taints_classed _ _ _)⟩
  | closesFlat => exact ⟨_, (taints_add _ _).trans (taints_classed _ _ _)⟩

/-- **What every step keeps, reading all tokens keeps**, and at each step the token
read is the one whose index is the number of classes. -/
theorem pushAll_induction {ts : List Token} {P : Reading → Prop} (hbegin : P begin)
    (hstep : ∀ r t, r.IsCapped → ts[r.classes.size]? = some t → P r → P (r.push t)) :
    P (begin.pushAll ts) := by
  have hrun : ∀ (rest : List Token) (r : Reading), r.IsCapped →
      ts.drop r.classes.size = rest → P r → P (r.pushAll rest) := by
    intro rest
    induction rest with
    | nil => exact fun r _ _ h => h
    | cons t rest ih =>
        intro r hcapped hrest h
        have ht : ts[r.classes.size]? = some t := by
          rw [← List.head?_drop, hrest]
          rfl
        obtain ⟨hcapped', _, hsize⟩ := depth_step (r.step_push t) hcapped
        refine ih (r.push t) hcapped' ?_ (hstep r t hcapped ht h)
        rw [hsize, ← List.tail_drop, hrest]
        rfl
  exact hrun ts begin isCapped_begin rfl hbegin

end Reading

/-! ## §4. Lists in progress. -/

open Reading

section

variable (ts : List Token) (us : List Taint)

/-- The rows that are open behind the first `n` tokens: that of the forms, and one
inside every list on the stack; the innermost goes up to the place given. -/
inductive Opened (forms : List Sexp) (n : Nat) : List OpenList → Nat → Prop where
  | outside {j : Nat} (row : Row ts us 0 .none 0 j forms.reverse) : Opened forms n [] j
  | inside {l : OpenList} {ls : List OpenList} {j k : Nat} {x : Token}
      (outer : Opened forms n ls j) (lead : Lead ts us j (enclosing ls) l.index l.taint)
      (hd : ls.length < maxDepth) (hx : TokenAt ts us l.index x l.taint)
      (hs : l.start = x.start) (hopen : IsOpenUpTo ts n ls.length l.index)
      (row : Row ts us (ls.length + 1) l.taint (l.index + 1) k l.elements.reverse) :
      Opened forms n (l :: ls) k

/-- The open rows, if a list is read flat that starts at `p`, has the taint `u` and
the elements `es`. -/
inductive OpenedFlat (forms : List Sexp) (stack : List OpenList) (p : Position) (u : Taint)
    (n : Nat) (es : List Sexp) : Prop where
  | intro {i j : Nat} {x : Token} (outer : Opened ts us forms n stack j)
      (lead : Lead ts us j (enclosing stack) i u) (hx : TokenAt ts us i x u)
      (hs : p = x.start) (hopen : IsOpenUpTo ts n stack.length i)
      (row : FlatRow ts us u (i + 1) n es)

/-- What holds of a reading of the first tokens of `ts`, if `us` are the taints that
the classes of all tokens will have. -/
structure IsLaidOut (r : Reading) : Prop where
  capped : r.IsCapped
  depth : r.depth = nesting (ts.take r.classes.size)
  tree : r.flat = none → ∃ j, Opened ts us r.forms r.classes.size r.stack j
    ∧ Lead ts us j (enclosing r.stack) r.classes.size r.next
  flat : ∀ f, r.flat = some f →
    OpenedFlat ts us r.forms r.stack f.start f.taint r.classes.size f.elements.reverse

end

section

variable {ts : List Token} {us : List Taint} {forms : List Sexp} {n : Nat}

/-- Lists stay open behind one more token if as many parens are open as there are
lists. -/
theorem Opened.advance {stack : List OpenList} {j : Nat} (h : Opened ts us forms n stack j)
    (hn : stack.length ≤ nesting (ts.take (n + 1))) : Opened ts us forms (n + 1) stack j := by
  induction h with
  | outside row => exact .outside row
  | inside outer lead hd hx hs hopen row ih =>
      rw [List.length_cons] at hn
      exact .inside (ih (Nat.le_of_succ_le hn)) lead hd hx hs (hopen.succ hn) row

theorem OpenedFlat.advance {stack : List OpenList} {p : Position} {u : Taint}
    {es es' : List Sexp} (h : OpenedFlat ts us forms stack p u n es)
    (hn : stack.length < nesting (ts.take (n + 1)))
    (hrow : ∀ i, FlatRow ts us u i n es → FlatRow ts us u i (n + 1) es') :
    OpenedFlat ts us forms stack p u (n + 1) es' := by
  obtain ⟨outer, lead, hx, hs, hopen, row⟩ := h
  exact .intro (outer.advance (Nat.le_of_lt hn)) lead hx hs (hopen.succ hn) (hrow _ row)

theorem next_add (r : Reading) (e : Sexp) : (r.add e).next = enclosing r.stack := by
  unfold add enclosing
  cases r.stack <;> rfl

theorem enclosing_add (r : Reading) (e : Sexp) :
    enclosing (r.add e).stack = enclosing r.stack := by
  unfold add enclosing
  cases r.stack <;> rfl

/-- A complete expression makes the innermost row longer. -/
theorem Opened.add {r : Reading} {e : Sexp} {j k : Nat} (h : Opened ts us r.forms n r.stack j)
    (hrow : ∀ i es, Row ts us r.stack.length (enclosing r.stack) i j es →
      Row ts us r.stack.length (enclosing r.stack) i k (es ++ [e])) :
    Opened ts us (r.add e).forms n (r.add e).stack k := by
  unfold Reading.add
  generalize hstack : r.stack = stack at h hrow
  cases h with
  | outside row =>
      refine .outside ?_
      rw [List.reverse_cons]
      exact hrow _ _ row
  | inside outer lead hd hx hs hopen row =>
      refine .inside outer lead hd hx hs hopen ?_
      show Row _ _ _ _ _ _ (List.reverse (_ :: _))
      rw [List.reverse_cons]
      exact hrow _ _ row

/-! ## §5. Every token follows the rules. -/

variable {r r' : Reading} {t : Token}

theorem IsLaidOut.of_tree {m j : Nat} (hcapped : r.IsCapped) (hsize : r.classes.size = m)
    (hdepth : r.depth = nesting (ts.take m)) (hf : r.flat = none)
    (ho : Opened ts us r.forms m r.stack j) (hl : Lead ts us j (enclosing r.stack) m r.next) :
    IsLaidOut ts us r := by
  subst hsize
  refine ⟨hcapped, hdepth, fun _ => ⟨j, ho, hl⟩, ?_⟩
  intro f hf'
  rw [hf] at hf'
  cases hf'

theorem IsLaidOut.of_flat {m : Nat} {f : FlatList} (hcapped : r.IsCapped)
    (hsize : r.classes.size = m) (hdepth : r.depth = nesting (ts.take m)) (hf : r.flat = some f)
    (h : OpenedFlat ts us r.forms r.stack f.start f.taint m f.elements.reverse) :
    IsLaidOut ts us r := by
  subst hsize
  refine ⟨hcapped, hdepth, ?_, ?_⟩
  · intro hf'
    rw [hf] at hf'
    cases hf'
  · intro f' hf'
    rw [hf] at hf'
    cases hf'
    exact h

/-- The class of a token is where its taint says. -/
theorem tokenAt_of_prefix {u : Taint} (ht : ts[r.classes.size]? = some t)
    (hus : r.taints ++ [u] <+: us) : TokenAt ts us r.classes.size t u := by
  refine ⟨ht, ?_⟩
  obtain ⟨rest, rfl⟩ := hus
  rw [List.append_assoc, List.getElem?_append_right (Nat.le_of_eq r.length_taints),
    length_taints, Nat.sub_self]
  rfl

/-- Behind a complete expression the taint is that of the innermost list. -/
theorem lead_add (r : Reading) (e : Sexp) (m : Nat) :
    Lead ts us m (enclosing (r.add e).stack) m (r.add e).next := by
  rw [enclosing_add, next_add]
  exact .start

theorem lead_close {l : OpenList} {ls : List OpenList} (hs : r.stack = l :: ls)
    (stop : Position) (closed : Bool) (m : Nat) :
    Lead ts us m (enclosing (r.close stop closed).stack) m (r.close stop closed).next := by
  unfold Reading.close
  rw [hs]
  exact lead_add _ _ _

theorem TokenAt.kind_eq {i : Nat} {x : Token} {u : Taint} {k : Kind} (hx : TokenAt ts us i x u)
    (h : ∃ t, ts[i]? = some t ∧ t.kind = k) : x.kind = k := by
  obtain ⟨t, ht, hk⟩ := h
  rw [hx.1] at ht
  cases ht
  exact hk

/-- Closing the innermost list makes an expression of its row. -/
theorem Opened.close {l : OpenList} {ls : List OpenList} {j m q : Nat} {v : Taint}
    (h : Opened ts us r.forms n r.stack j) (hs : r.stack = l :: ls) (stop : Position)
    (closed : Bool) (hl : Lead ts us j l.taint m v)
    (hends : l.index < m → IsOpenUpTo ts n ls.length l.index →
      Ends ts us l.index l.taint m q stop closed) :
    Opened ts us (r.close stop closed).forms n (r.close stop closed).stack q := by
  rw [hs] at h
  unfold Reading.close
  rw [hs]
  obtain _ | ⟨outer, lead, hd, hx, hstart, hopen, row⟩ := h
  have hlt : l.index < m := Nat.lt_of_succ_le (Nat.le_trans row.le hl.le)
  refine outer.add (r := ⟨_, ls, _, _, _⟩) fun i es before => ?_
  rw [hstart]
  exact .list before lead hd hx (hx.kind_eq hopen.opens) row hl (hends hlt hopen)

/-- So does closing the list that is read flat. -/
theorem OpenedFlat.close {f : FlatList} {q : Nat}
    (h : OpenedFlat ts us r.forms r.stack f.start f.taint n f.elements.reverse)
    (hfull : r.stack.length = maxDepth) (stop : Position) (closed : Bool)
    (hends : ∀ i, i < n → IsOpenUpTo ts n r.stack.length i →
      Ends ts us i f.taint n q stop closed) :
    Opened ts us (r.closeFlat f stop closed).forms n (r.closeFlat f stop closed).stack q := by
  obtain ⟨outer, lead, hx, hstart, hopen, row⟩ := h
  refine outer.add (r := { r with flat := none }) fun i es before => ?_
  have hends' := hends _ (Nat.lt_of_succ_le row.le) hopen
  have before' : Row ts us r.stack.length (enclosing r.stack) i _ es := before
  show Row ts us r.stack.length (enclosing r.stack) i q _
  rw [hstart, hfull] at *
  exact .flat before' lead hx (hx.kind_eq hopen.opens) row hends'

/-- **Reading one more token follows the rules.** -/
theorem laidOut_step (hstep : Step r t r') (h : IsLaidOut ts us r)
    (ht : ts[r.classes.size]? = some t) (hus : r'.taints <+: us) : IsLaidOut ts us r' := by
  obtain ⟨hcapped, hdepth, hsize⟩ := depth_step hstep h.capped
  rw [h.depth, ← nesting_take_succ ht] at hdepth
  have hx : ∀ {u}, r'.taints = r.taints ++ [u] → TokenAt ts us r.classes.size t u :=
    fun hu => tokenAt_of_prefix ht (hu ▸ hus)
  -- there is room for all lists, and for one more if a list is read flat
  have hroom : r'.stack.length ≤ nesting (ts.take (r.classes.size + 1)) :=
    hdepth ▸ Nat.le_add_right _ _
  have hroomFlat : ∀ f, r'.flat = some f →
      r'.stack.length < nesting (ts.take (r.classes.size + 1)) := by
    intro f hf
    rw [← hdepth, depth, flatDepth_of_some hf]
    omega
  cases hstep with
  | trivia hk =>
      have hx := hx (taints_classed _ _ _)
      cases hf : r.flat with
      | none =>
          obtain ⟨j, ho, hl⟩ := h.tree hf
          exact .of_tree hcapped hsize hdepth hf (ho.advance hroom) (hl.trivia hx hk)
      | some f =>
          exact .of_flat hcapped hsize hdepth hf
            ((h.flat f hf).advance (hroomFlat f hf) fun i row => row.trivia hx hk)
  | operator hk hf =>
      obtain ⟨j, ho, hl⟩ := h.tree hf
      exact .of_tree hcapped hsize hdepth hf (ho.advance hroom)
        (hl.operator (hx (taints_classed _ _ _)) hk)
  | atom hk hf =>
      obtain ⟨j, ho, hl⟩ := h.tree hf
      rw [length_stack_add] at hroom
      have hx := hx ((taints_add _ _).trans (taints_classed _ _ _))
      refine .of_tree hcapped hsize hdepth ((flat_add _ _).trans hf) ?_ (lead_add _ _ _)
      exact (ho.advance hroom).add (r := r.classed t.kind r.next)
        fun i es before => .atom before hl hx hk
  | stray hk hf hs =>
      obtain ⟨j, ho, hl⟩ := h.tree hf
      rw [length_stack_add] at hroom
      have hx := hx ((taints_add _ _).trans (taints_classed _ _ _))
      have hzero : nesting (ts.take r.classes.size) = 0 :=
        h.depth.symm.trans ((depth_eq_zero_iff r).2 ⟨hs, hf⟩)
      refine .of_tree hcapped hsize hdepth ((flat_add _ _).trans hf) ?_ (lead_add _ _ _)
      refine (ho.advance hroom).add (r := r.classed .strayParen .none) fun i es before => ?_
      have before' : Row ts us r.stack.length (enclosing r.stack) i j es := before
      show Row ts us r.stack.length (enclosing r.stack) i _ _
      rw [hs] at before' hl ⊢
      exact .stray before' hl hx hk hzero
  | opens hk hf hlen =>
      obtain ⟨j, ho, hl⟩ := h.tree hf
      have hx := hx (taints_classed _ _ _)
      have hlevel : nesting (ts.take r.classes.size) = r.stack.length := by
        rw [← h.depth, depth, flatDepth_of_none hf, Nat.add_zero]
      refine .of_tree hcapped hsize hdepth hf ?_ .start
      exact .inside (ho.advance (Nat.le_of_succ_le hroom)) hl hlen hx rfl (.new ht hk hlevel)
        (.nil _ _ _)
  | closes l ls hk hf hs =>
      obtain ⟨j, ho, hl⟩ := h.tree hf
      have hx := hx ((taints_close _ _ _).trans (taints_classed _ _ _))
      have hl' : Lead ts us j l.taint r.classes.size r.next := by
        rw [hs] at hl
        exact hl
      have hlevel : nesting (ts.take (r.classes.size + 1)) = ls.length := by
        rw [nesting_take_succ ht, hk, ← h.depth, depth, flatDepth_of_none hf, hs]
        rfl
      have hclosed := ho.close (r := r.classed .closeParen l.taint) hs t.stop true hl'
        fun hlt hopen => .closed hx (hopen.arePartners hlt ht hk hlevel)
      exact .of_tree hcapped hsize hdepth ((flat_close _ _ _).trans hf) (hclosed.advance hroom)
        (lead_close (r := r.classed .closeParen l.taint) hs _ _ _)
  | opensFlat hk hf hlen =>
      obtain ⟨j, ho, hl⟩ := h.tree hf
      have hx := hx (taints_classed _ _ _)
      have hlevel : nesting (ts.take r.classes.size) = r.stack.length := by
        rw [← h.depth, depth, flatDepth_of_none hf, Nat.add_zero]
      refine .of_flat hcapped hsize hdepth rfl ?_
      exact .intro (ho.advance hroom) hl hx rfl (.new ht hk hlevel) .nil
  | flatAtom f hk hf =>
      refine .of_flat hcapped hsize hdepth rfl ?_
      show OpenedFlat ts us r.forms r.stack f.start f.taint _ (List.reverse (_ :: _))
      rw [List.reverse_cons]
      exact (h.flat f hf).advance (hroomFlat _ rfl) fun i row =>
        row.atom (hx (taints_classed _ _ _)) hk
  | opensInner f hk hf =>
      refine .of_flat hcapped hsize hdepth rfl ?_
      exact (h.flat f hf).advance (hroomFlat _ rfl) fun i row =>
        row.paren (hx (taints_classed _ _ _)) (by rw [hk]; rfl)
  | closesInner f n hk hf hi =>
      refine .of_flat hcapped hsize hdepth rfl ?_
      exact (h.flat f hf).advance (hroomFlat _ rfl) fun i row =>
        row.paren (hx (taints_classed _ _ _)) (by rw [hk]; rfl)
  | closesFlat f hk hf hi =>
      have hx := hx ((taints_add _ _).trans (taints_classed _ _ _))
      have hlevel : nesting (ts.take (r.classes.size + 1)) = r.stack.length := by
        rw [nesting_take_succ ht, hk, ← h.depth, depth, flatDepth_of_some hf, hi]
        rfl
      have hclosed := (h.flat f hf).close (r := r.classed .closeParen f.taint)
        (h.capped.flat_at f hf) t.stop true
        fun i hlt hopen => .closed hx (hopen.arePartners hlt ht hk hlevel)
      exact .of_tree hcapped hsize hdepth (flat_add _ _) (hclosed.advance hroom)
        (lead_add _ _ _)

theorem laidOut_begin : IsLaidOut ts us begin :=
  .of_tree isCapped_begin rfl rfl rfl (.outside (.nil _ _ _)) .start

/-- **Reading all tokens follows the rules.** -/
theorem laidOut_pushAll (hus : (begin.pushAll ts).taints <+: us) :
    IsLaidOut ts us (begin.pushAll ts) := by
  refine pushAll_induction (P := fun r => r.taints <+: us → IsLaidOut ts us r)
    (fun _ => laidOut_begin) ?_ hus
  intro r t _ ht ih hus
  obtain ⟨u, hu⟩ := r.taints_push t
  have hgrows : r.taints <+: (r.push t).taints := hu ▸ List.prefix_append _ _
  exact laidOut_step (r.step_push t) (ih (hgrows.trans hus)) ht hus

/-! ## §6. The end of the text. -/

/-- Closing lists gives no token another taint. -/
theorem taints_closeAll (r : Reading) (stop : Position) : (r.closeAll stop).taints = r.taints :=
  (closeAll_induction (P := fun r' => r'.taints = r.taints) stop
    (fun _ _ => taints_add _ _) (fun _ => rfl)
    fun _ _ _ _ _ h => (taints_close _ _ _).trans h).1

/-- What holds while the lists that are open at the end of the text are closed. -/
def IsLaidOutToEnd (ts : List Token) (us : List Taint) (r : Reading) : Prop :=
  ∃ j u, Opened ts us r.forms ts.length r.stack j
    ∧ Lead ts us j (enclosing r.stack) ts.length u

theorem laidOutToEnd_closeAll (h : IsLaidOut ts us r) (hsize : r.classes.size = ts.length) :
    IsLaidOutToEnd ts us (r.closeAll (stopOf ts)) ∧ (r.closeAll (stopOf ts)).stack = []
      ∧ (r.closeAll (stopOf ts)).flat = none := by
  refine closeAll_induction (P := IsLaidOutToEnd ts us) (stopOf ts) ?_ ?_ ?_
  · intro f hf
    have hopened := h.flat f hf
    rw [hsize] at hopened
    have hclosed := hopened.close (h.capped.flat_at f hf) (stopOf ts) false
      fun i _ hopen => .unclosed rfl hopen.staysOpen
    exact ⟨_, _, hclosed, lead_add _ _ _⟩
  · intro hf
    obtain ⟨j, ho, hl⟩ := h.tree hf
    rw [hsize] at ho hl
    exact ⟨j, _, ho, hl⟩
  · intro r l ls _ hs hr
    obtain ⟨j, u, ho, hl⟩ := hr
    rw [hs] at hl
    have hclosed := ho.close hs (stopOf ts) false hl fun _ hopen => .unclosed rfl hopen.staysOpen
    exact ⟨_, _, hclosed, lead_close hs _ _ _⟩

end

/-- **What is read from a token list follows the rules**: the tokens are the row of
the forms, and behind it only trivia and prefix operators. -/
theorem row_read (ts : List Token) :
    ∃ j u, Row ts ((read ts).classes.map TokenClass.taint) 0 .none 0 j (read ts).forms
      ∧ Lead ts ((read ts).classes.map TokenClass.taint) j .none ts.length u := by
  have htaints : (read ts).classes.map TokenClass.taint = (begin.pushAll ts).taints :=
    taints_closeAll _ (stopOf ts)
  have hus : (begin.pushAll ts).taints <+: (read ts).classes.map TokenClass.taint :=
    htaints ▸ List.prefix_rfl
  obtain ⟨⟨j, u, ho, hl⟩, hstack, _⟩ :=
    laidOutToEnd_closeAll (laidOut_pushAll hus) (size_classes_pushAll ts)
  rw [hstack] at ho hl
  cases ho with
  | outside row => exact ⟨j, u, row, hl⟩

/-! ## §7. The lists of a row. -/

mutual

/-- An expression and all that is inside it. -/
def Sexp.nodes : Sexp → List Sexp
  | .atom a => [.atom a]
  | .list o role es => .list o role es :: Sexp.allNodes es

/-- Expressions and all that is inside them. -/
def Sexp.allNodes : List Sexp → List Sexp
  | [] => []
  | e :: es => e.nodes ++ Sexp.allNodes es

end

theorem Sexp.mem_allNodes {x : Sexp} {es : List Sexp} :
    x ∈ allNodes es ↔ ∃ e ∈ es, x ∈ e.nodes := by
  induction es with
  | nil => simp [allNodes]
  | cons e es ih => simp [allNodes, ih]

theorem Sexp.mem_allNodes_concat {x e : Sexp} {es : List Sexp} :
    x ∈ allNodes (es ++ [e]) ↔ x ∈ allNodes es ∨ x ∈ e.nodes := by
  simp only [mem_allNodes, List.mem_append, List.mem_singleton, or_and_right, exists_or,
    exists_eq_left]

theorem Sexp.mem_nodes_list {x : Sexp} {o : Outline} {role : Role} {es : List Sexp} :
    x ∈ (Sexp.list o role es).nodes ↔ x = .list o role es ∨ x ∈ allNodes es :=
  List.mem_cons

/-- What the rules say of a list: it is read as a tree or flat. -/
inductive IsRead (ts : List Token) (us : List Taint) : Outline → Role → List Sexp → Prop where
  | tree {d k m n q : Nat} {u v : Taint} {inner : List Sexp} {x : Token} {stop : Position}
      {closed : Bool} (hx : TokenAt ts us k x u) (hk : x.kind = .openParen)
      (inside : Row ts us (d + 1) u (k + 1) m inner) (trail : Lead ts us m u n v)
      (ends : Ends ts us k u n q stop closed) :
      IsRead ts us ⟨x.start, stop, closed, u⟩ (Recognition.ofList u inner).role inner
  | flat {k n q : Nat} {u : Taint} {inner : List Sexp} {x : Token} {stop : Position}
      {closed : Bool} (hx : TokenAt ts us k x u) (hk : x.kind = .openParen)
      (inside : FlatRow ts us u (k + 1) n inner) (ends : Ends ts us k u n q stop closed) :
      IsRead ts us ⟨x.start, stop, closed, u⟩ .plain inner

section

variable {ts : List Token} {us : List Taint}

/-- A list that is read flat contains no list. -/
theorem FlatRow.eq_atom {u : Taint} {i j : Nat} {es : List Sexp} (h : FlatRow ts us u i j es) :
    ∀ x ∈ Sexp.allNodes es, ∃ a, x = .atom a := by
  induction h with
  | nil => exact fun x hx => nomatch hx
  | trivia _ _ _ ih | paren _ _ _ ih => exact ih
  | atom _ _ _ ih =>
      intro x hx
      rcases Sexp.mem_allNodes_concat.1 hx with hx | hx
      · exact ih x hx
      · exact ⟨_, List.mem_singleton.1 hx⟩

/-- **Every list inside a row was read by the rules.** -/
theorem Row.isRead {d i j : Nat} {t : Taint} {es : List Sexp} (h : Row ts us d t i j es) :
    ∀ o role inner, .list o role inner ∈ Sexp.allNodes es → IsRead ts us o role inner := by
  induction h with
  | nil => exact fun o role inner hx => nomatch hx
  | atom _ _ _ _ ih | stray _ _ _ _ _ ih =>
      intro o role inner hx
      rcases Sexp.mem_allNodes_concat.1 hx with hx | hx
      · exact ih o role inner hx
      · cases List.mem_singleton.1 hx
  | list _ _ _ hx hk inside trail ends ih ihInside =>
      intro o role inner hmem
      rcases Sexp.mem_allNodes_concat.1 hmem with hmem | hmem
      · exact ih o role inner hmem
      · rcases Sexp.mem_nodes_list.1 hmem with heq | hmem
        · cases heq
          exact .tree hx hk inside trail ends
        · exact ihInside o role inner hmem
  | flat _ _ hx hk inside ends ih =>
      intro o role inner hmem
      rcases Sexp.mem_allNodes_concat.1 hmem with hmem | hmem
      · exact ih o role inner hmem
      · rcases Sexp.mem_nodes_list.1 hmem with heq | hmem
        · cases heq
          exact .flat hx hk inside ends
        · obtain ⟨a, ha⟩ := inside.eq_atom _ hmem
          cases ha

end

end LispLink.Source
