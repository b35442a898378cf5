/-
  LispLink.Proofs.Source.Flags
  ────────────────────────────────
  **BOTH WAYS TO PAINT FLAG THE SAME PARENS.**

  Reading a text and matching its parens go through the tokens side by side.
  The parens that the second has open are those of the open lists, with those
  that are open inside a flat list on top:

      opened  =  (inside the flat list)  ++  (the lists on the stack)

  and on every paren the class says what the kind says.  Recognition comes
  between without harm, since it puts marks on atoms of open lists only, and
  no such atom is a paren.  At the end of the text the last list that reading
  closes is the last paren that is open.
-/
import LispLink.Proofs.Source.Marks
import LispLink.Proofs.Source.Matching

namespace LispLink.Source

/-! ## §1. What both passes say of parens. -/

/-- Whether classes and kinds, one of each for every token, are of one mind about
the parens. -/
structure ParensAgree (ts : List Token) (classes : Array TokenClass) (kinds : Array Kind) :
    Prop where
  classes_size : classes.size = ts.length
  kinds_size : kinds.size = ts.length
  agree : ∀ (i : Nat) (t : Token), ts[i]? = some t → t.kind.isParen = true →
    classes[i]?.map TokenClass.kind = kinds[i]?

/-- Whether there is a token with this index that is no paren. -/
def PlainAt (ts : List Token) (i : Nat) : Prop := ∃ t, ts[i]? = some t ∧ t.kind.isParen = false

theorem PlainAt.concat {ts : List Token} {i : Nat} (h : PlainAt ts i) (t : Token) :
    PlainAt (ts ++ [t]) i := by
  obtain ⟨u, hu, hplain⟩ := h
  refine ⟨u, ?_, hplain⟩
  rw [List.getElem?_append_left (List.getElem?_eq_some_iff.1 hu).1]
  exact hu

theorem plainAt_length (ts : List Token) {t : Token} (ht : t.kind.isParen = false) :
    PlainAt (ts ++ [t]) ts.length :=
  ⟨t, List.getElem?_concat_length, ht⟩

section

variable {ts : List Token} {classes : Array TokenClass} {kinds : Array Kind}

/-- They stay of one mind with one more token, if they are about it. -/
theorem ParensAgree.concat (h : ParensAgree ts classes kinds) {t : Token} {c : TokenClass}
    {k : Kind} (hk : t.kind.isParen = true → c.kind = k) :
    ParensAgree (ts ++ [t]) (classes.push c) (kinds.push k) := by
  obtain ⟨hclasses, hkinds, hagree⟩ := h
  refine ⟨by simp [hclasses], by simp [hkinds], ?_⟩
  intro i u hu hparen
  rw [Array.getElem?_push, Array.getElem?_push, hclasses, hkinds]
  rcases getElem?_concat_cases hu with ⟨hi, hu⟩ | ⟨rfl, rfl⟩
  · rw [if_neg (Nat.ne_of_lt hi), if_neg (Nat.ne_of_lt hi)]
    exact hagree i u hu hparen
  · rw [if_pos rfl, if_pos rfl]
    exact congrArg some (hk hparen)

/-- A mark on a token that is no paren is nothing to them. -/
theorem ParensAgree.mark (h : ParensAgree ts classes kinds) {marks : List Mark}
    (hmarks : ∀ m ∈ marks, PlainAt ts m.index) :
    ParensAgree ts (Reading.mark classes marks) kinds := by
  induction marks generalizing classes with
  | nil => exact h
  | cons m ms ih =>
      have hrest : ∀ m' ∈ ms, PlainAt ts m'.index := fun m' hm' =>
        hmarks m' (List.mem_cons_of_mem m hm')
      suffices h' : ParensAgree ts (classes.modify m.index ({ · with kind := m.kind })) kinds from
        ih h' hrest
      refine ⟨by rw [Array.size_modify, h.classes_size], h.kinds_size, ?_⟩
      intro i t ht hparen
      obtain ⟨u, hu, hplain⟩ := hmarks m List.mem_cons_self
      have hne : m.index ≠ i := by
        intro heq
        rw [heq, ht] at hu
        cases hu
        rw [hplain] at hparen
        cases hparen
      rw [Array.getElem?_modify, if_neg hne]
      exact h.agree i t ht hparen

/-- One paren may be flagged by both. -/
theorem ParensAgree.flag (h : ParensAgree ts classes kinds) (i : Nat) (k : Kind) :
    ParensAgree ts (Reading.mark classes [⟨i, k⟩]) (kinds.setIfInBounds i k) := by
  refine ⟨by rw [Reading.size_mark, h.classes_size], by
    rw [Array.size_setIfInBounds, h.kinds_size], ?_⟩
  intro j t ht hparen
  show (classes.modify i ({ · with kind := k }))[j]?.map TokenClass.kind = _
  rw [Array.getElem?_modify]
  by_cases hij : i = j
  · subst hij
    have hlt : i < ts.length := (List.getElem?_eq_some_iff.1 ht).1
    rw [if_pos rfl, Array.getElem?_setIfInBounds_self_of_lt (by rw [h.kinds_size]; exact hlt),
      Array.getElem?_eq_getElem (by rw [h.classes_size]; exact hlt)]
    rfl
  · rw [if_neg hij, Array.getElem?_setIfInBounds_ne hij]
    exact h.agree j t ht hparen

end

/-! ## §2. Atoms of open lists. -/

/-- Whether no atom of an expression is a paren. -/
def Sexp.IsPlain (ts : List Token) (e : Sexp) : Prop := ∀ a ∈ e.atoms, PlainAt ts a.index

theorem Sexp.isPlain_atom {ts : List Token} {t : Token} {i : Nat} (hi : i = ts.length)
    (ht : t.kind.isParen = false) (taint : Taint) :
    (Sexp.atom ⟨t, i, taint⟩).IsPlain (ts ++ [t]) := by
  intro a ha
  obtain rfl := List.mem_singleton.1 ha
  rw [hi]
  exact plainAt_length ts ht

namespace Reading

/-- Whether no atom of a list in progress is a paren. -/
structure IsPlain (ts : List Token) (r : Reading) : Prop where
  stack : ∀ l ∈ r.stack, ∀ e ∈ l.elements, e.IsPlain ts
  flat : ∀ f, r.flat = some f → ∀ e ∈ f.elements, e.IsPlain ts

section

variable {ts : List Token} {r : Reading}

theorem IsPlain.concat (h : r.IsPlain ts) (t : Token) : r.IsPlain (ts ++ [t]) :=
  ⟨fun l hl e he a ha => (h.stack l hl e he a ha).concat t,
    fun f hf e he a ha => (h.flat f hf e he a ha).concat t⟩

/-- Outside all lists there is no list in progress. -/
theorem isPlain_of_top (ts : List Token) (hs : r.stack = []) (hf : r.flat = none) :
    r.IsPlain ts := by
  refine ⟨?_, ?_⟩
  · rw [hs]
    exact fun l hl => nomatch hl
  · rw [hf]
    exact fun f hf => nomatch hf

theorem isPlain_add (h : r.IsPlain ts) {e : Sexp} (he : r.stack ≠ [] → e.IsPlain ts) :
    (r.add e).IsPlain ts := by
  refine ⟨?_, ?_⟩
  · unfold add
    cases hs : r.stack with
    | nil => exact fun l hl => nomatch hl
    | cons l ls =>
        have hstack := h.stack
        rw [hs] at hstack
        intro l' hl' e' he'
        rcases List.mem_cons.1 hl' with rfl | hl'
        · rcases List.mem_cons.1 he' with rfl | he'
          · refine he ?_
            rw [hs]
            exact List.cons_ne_nil _ _
          · exact hstack l List.mem_cons_self e' he'
        · exact hstack l' (List.mem_cons_of_mem l hl') e' he'
  · rw [flat_add]
    exact h.flat

theorem map_index_add (r : Reading) (e : Sexp) :
    (r.add e).stack.map OpenList.index = r.stack.map OpenList.index := by
  unfold add
  cases r.stack <;> rfl

/-- What closing a list does to the stack, to the classes and to the lists that
are still in progress. -/
theorem close_plain {l : OpenList} {ls : List OpenList} (hs : r.stack = l :: ls)
    (h : r.IsPlain ts) (stop : Position) (closed : Bool) :
    (r.close stop closed).stack.map OpenList.index = ls.map OpenList.index
      ∧ (r.close stop closed).IsPlain ts
      ∧ ∃ marks : List Mark, (∀ m ∈ marks, PlainAt ts m.index)
        ∧ (r.close stop closed).classes = mark
            (if closed || !ls.isEmpty then r.classes
              else mark r.classes [⟨l.index, .unclosedParen⟩]) marks := by
  have helements : ∀ a ∈ Sexp.allAtoms l.elements.reverse, PlainAt ts a.index := by
    intro a ha
    obtain ⟨e, he, ha⟩ := Sexp.mem_allAtoms.1 ha
    have hl : l ∈ r.stack := by
      rw [hs]
      exact List.mem_cons_self
    exact h.stack l hl e (List.mem_reverse.1 he) a ha
  have hrest : ∀ l' ∈ ls, l' ∈ r.stack := by
    intro l' hl'
    rw [hs]
    exact List.mem_cons_of_mem l hl'
  unfold close
  rw [hs]
  refine ⟨map_index_add _ _, ?_, ?_⟩
  · exact isPlain_add (r := ⟨_, ls, r.flat, _, _⟩)
      ⟨fun l' hl' => h.stack l' (hrest l' hl'), h.flat⟩ fun _ => helements
  · refine ⟨(Recognition.ofList l.taint l.elements.reverse).marks, ?_, classes_add _ _⟩
    intro m hm
    obtain ⟨a, ha, hindex⟩ := Recognition.marksWithin_ofList l.taint l.elements.reverse m hm
    rw [← hindex]
    exact helements a ha

theorem closeFlat_plain {f : FlatList} (hf : r.flat = some f) (h : r.IsPlain ts) (stop : Position)
    (closed : Bool) :
    (r.closeFlat f stop closed).stack.map OpenList.index = r.stack.map OpenList.index
      ∧ (r.closeFlat f stop closed).flatDepth = 0
      ∧ (r.closeFlat f stop closed).classes = r.classes
      ∧ (r.closeFlat f stop closed).IsPlain ts := by
  refine ⟨map_index_add _ _, flatDepth_of_none (flat_add _ _), classes_add _ _, ?_⟩
  refine isPlain_add (r := { r with flat := none }) ⟨h.stack, fun f hnone => nomatch hnone⟩ ?_
  intro _ a ha
  obtain ⟨e, he, ha⟩ := Sexp.mem_allAtoms.1 ha
  exact h.flat f hf e (List.mem_reverse.1 he) a ha

end

/-! ## §3. Side by side. -/

/-- What holds when reading and matching have passed the same tokens. -/
structure Agrees (ts : List Token) (r : Reading) (m : Matching) : Prop where
  capped : r.IsCapped
  parens : ParensAgree ts r.classes m.kinds
  depth : m.opened.length = r.depth
  /-- Below the parens that are open inside a flat list are those of the open lists. -/
  opened : m.opened.drop r.flatDepth = r.stack.map OpenList.index
  plain : r.IsPlain ts

theorem agrees_begin : Agrees [] begin Matching.begin :=
  ⟨isCapped_begin, ⟨rfl, rfl, fun _ _ h => nomatch h⟩, rfl, rfl, isPlain_of_top [] rfl rfl⟩

section

variable {ts : List Token} {r r' : Reading} {m : Matching} {t : Token}

/-- A token that is no paren opens nothing and closes nothing. -/
theorem Agrees.other (h : Agrees ts r m) (hstep : Step r t r') (ht : t.kind.isParen = false)
    {c : TokenClass} (hclasses : r'.classes = r.classes.push c)
    (hstack : r'.stack.map OpenList.index = r.stack.map OpenList.index)
    (hflat : r'.flatDepth = r.flatDepth) (hplain : r'.IsPlain (ts ++ [t])) :
    Agrees (ts ++ [t]) r' (m.push t.kind) := by
  obtain ⟨hcapped, hdepth, _⟩ := depth_step hstep h.capped
  rw [Kind.nest_of_not_isParen ht] at hdepth
  rw [Matching.push_of_not_isParen ht]
  refine ⟨hcapped, ?_, h.depth.trans hdepth.symm, ?_, hplain⟩
  · rw [hclasses]
    refine h.parens.concat ?_
    intro hparen
    rw [ht] at hparen
    cases hparen
  · rw [hflat, hstack]
    exact h.opened

/-- With a paren one more is open, be it that of a list or one inside a flat
list. -/
theorem Agrees.openParen (h : Agrees ts r m) (hstep : Step r t r') (ht : t.kind = .openParen)
    {taint : Taint} (hclasses : r'.classes = r.classes.push ⟨.openParen, taint⟩)
    (hopened : (m.kinds.size :: m.opened).drop r'.flatDepth = r'.stack.map OpenList.index)
    (hplain : r'.IsPlain (ts ++ [t])) : Agrees (ts ++ [t]) r' (m.push t.kind) := by
  obtain ⟨hcapped, hdepth, _⟩ := depth_step hstep h.capped
  rw [ht] at hdepth ⊢
  rw [Matching.push_openParen]
  refine ⟨hcapped, ?_, ?_, hopened, hplain⟩
  · rw [hclasses]
    exact h.parens.concat fun _ => rfl
  · show m.opened.length + 1 = r'.depth
    rw [h.depth, hdepth]
    rfl

/-- A close paren with something open takes the innermost one away. -/
theorem Agrees.closeParen (h : Agrees ts r m) (hstep : Step r t r') (ht : t.kind = .closeParen)
    {i : Nat} {rest : List Nat} (ho : m.opened = i :: rest)
    (hparens : ParensAgree (ts ++ [t]) r'.classes (m.kinds.push .closeParen))
    (hopened : rest.drop r'.flatDepth = r'.stack.map OpenList.index)
    (hplain : r'.IsPlain (ts ++ [t])) : Agrees (ts ++ [t]) r' (m.push t.kind) := by
  obtain ⟨hcapped, hdepth, _⟩ := depth_step hstep h.capped
  rw [ht] at hdepth ⊢
  rw [Matching.push_closeParen ho]
  refine ⟨hcapped, hparens, ?_, hopened, hplain⟩
  rw [hdepth, ← h.depth, ho]
  rfl

/-- With nothing open the close paren becomes an atom, the only paren that does; it
stands outside all lists. -/
theorem Agrees.stray (h : Agrees ts r m) (ht : t.kind = .closeParen) (hf : r.flat = none)
    (hs : r.stack = []) :
    Agrees (ts ++ [t]) ((r.classed .strayParen .none).add (.atom ⟨t, r.classes.size, .none⟩))
      (m.push t.kind) := by
  have hzero : r.depth = 0 := (depth_eq_zero_iff r).2 ⟨hs, hf⟩
  have ho : m.opened = [] := by
    rw [← List.length_eq_zero_iff, h.depth, hzero]
  obtain ⟨hcapped, hdepth, _⟩ := depth_step (.stray ht hf hs) h.capped
  rw [ht, hzero] at hdepth
  have hplain := h.plain.concat t
  rw [ht, Matching.push_closeParen_stray ho]
  refine ⟨hcapped, ?_, hdepth.symm, ?_, ?_⟩
  · rw [classes_add]
    exact h.parens.concat fun _ => rfl
  · rw [map_index_add]
    show _ = r.stack.map OpenList.index
    rw [hs]
    exact List.drop_nil
  · exact isPlain_add (r := r.classed .strayParen .none) ⟨hplain.stack, hplain.flat⟩
      fun hne => absurd hs hne

/-- Inside lists or parens something is open. -/
theorem Agrees.opened_cons (h : Agrees ts r m) (hpos : r.depth ≠ 0) :
    ∃ i rest, m.opened = i :: rest := by
  apply List.exists_cons_of_ne_nil
  intro ho
  apply hpos
  rw [← h.depth, ho]
  rfl

/-- **Both passes agree behind one more token.** -/
theorem agrees_step (h : Agrees ts r m) (hstep : Step r t r') :
    Agrees (ts ++ [t]) r' (m.push t.kind) := by
  have hindex : r.classes.size = ts.length := h.parens.classes_size
  have hplain : r.IsPlain (ts ++ [t]) := h.plain.concat t
  have hopened := h.opened
  cases hstep with
  | trivia hk =>
      exact h.other (.trivia hk) (Kind.isParen_of_isTrivia hk) rfl rfl rfl
        ⟨hplain.stack, hplain.flat⟩
  | operator hk hf =>
      exact h.other (.operator hk hf) (Kind.isParen_of_isOperator hk) rfl rfl rfl
        ⟨hplain.stack, hplain.flat⟩
  | atom hk hf =>
      have ht := Kind.isParen_of_isAtomic hk
      refine h.other (.atom hk hf) ht (classes_add _ _) (map_index_add _ _) ?_ ?_
      · unfold flatDepth
        rw [flat_add]
        rfl
      · exact isPlain_add (r := r.classed t.kind r.next) ⟨hplain.stack, hplain.flat⟩
          fun _ => Sexp.isPlain_atom hindex ht _
  | stray hk hf hs => exact h.stray hk hf hs
  | opens hk hf hlen =>
      rw [flatDepth_of_none hf] at hopened
      refine h.openParen (.opens hk hf hlen) hk rfl ?_ ⟨?_, hplain.flat⟩
      · have hzero := flatDepth_of_none (r := { r.classed .openParen r.next with
          stack := ⟨t.start, r.classes.size, r.next, []⟩ :: r.stack }) hf
        rw [hzero]
        show m.kinds.size :: m.opened = r.classes.size :: r.stack.map OpenList.index
        rw [hindex, h.parens.kinds_size, ← hopened]
        rfl
      · intro l hl
        rcases List.mem_cons.1 hl with rfl | hl
        · exact fun e he => nomatch he
        · exact hplain.stack l hl
  | closes l ls hk hf hs =>
      -- outside a flat list the innermost paren is that of the innermost list
      rw [flatDepth_of_none hf, hs] at hopened
      obtain ⟨hstack, hplain', marks, hmarks, hclasses⟩ :=
        close_plain (r := r.classed .closeParen l.taint) hs ⟨hplain.stack, hplain.flat⟩ t.stop true
      have ho : m.opened = l.index :: ls.map OpenList.index := hopened
      refine h.closeParen (.closes l ls hk hf hs) hk ho ?_ ?_ hplain'
      · rw [hclasses]
        exact (h.parens.concat fun _ => rfl).mark hmarks
      · have hf' := (flat_close (r.classed .closeParen l.taint) t.stop true).trans hf
        rw [hstack, flatDepth_of_none hf']
        rfl
  | opensFlat hk hf hlen =>
      -- the paren of a flat list is open, but there is no list for it on the stack
      rw [flatDepth_of_none hf] at hopened
      refine h.openParen (.opensFlat hk hf hlen) hk rfl hopened ⟨hplain.stack, ?_⟩
      rintro f ⟨⟩
      exact fun e he => nomatch he
  | flatAtom f hk hf =>
      have ht : t.kind.isParen = false :=
        hk.elim Kind.isParen_of_isAtomic Kind.isParen_of_isOperator
      refine h.other (.flatAtom f hk hf) ht rfl rfl (flatDepth_of_some hf).symm
        ⟨hplain.stack, ?_⟩
      rintro _ ⟨⟩ e he
      rcases List.mem_cons.1 he with rfl | he
      · exact Sexp.isPlain_atom hindex ht _
      · exact hplain.flat f hf e he
  | opensInner f hk hf =>
      rw [flatDepth_of_some hf] at hopened
      refine h.openParen (.opensInner f hk hf) hk rfl hopened ⟨hplain.stack, ?_⟩
      rintro _ ⟨⟩
      exact hplain.flat f hf
  | closesInner f n hk hf hi =>
      obtain ⟨i, rest, ho⟩ := h.opened_cons (depth_ne_zero_of_some hf)
      rw [flatDepth_of_some hf, hi, ho] at hopened
      refine h.closeParen (.closesInner f n hk hf hi) hk ho (h.parens.concat fun _ => rfl) hopened
        ⟨hplain.stack, ?_⟩
      rintro _ ⟨⟩
      exact hplain.flat f hf
  | closesFlat f hk hf hi =>
      obtain ⟨i, rest, ho⟩ := h.opened_cons (depth_ne_zero_of_some hf)
      rw [flatDepth_of_some hf, hi, ho] at hopened
      obtain ⟨hstack, hdepth, hclasses, hplain'⟩ := closeFlat_plain
        (r := r.classed .closeParen f.taint) hf ⟨hplain.stack, hplain.flat⟩ t.stop true
      refine h.closeParen (.closesFlat f hk hf hi) hk ho ?_ ?_ hplain'
      · rw [hclasses]
        exact h.parens.concat fun _ => rfl
      · rw [hdepth, hstack]
        exact hopened

/-- **Both passes agree behind every token.** -/
theorem agrees_pushAll (ts : List Token) :
    Agrees ts (begin.pushAll ts) (Matching.begin.pushAll ts) := by
  induction ts using List.reverseRecOn with
  | nil => exact agrees_begin
  | append_singleton ts t ih =>
      rw [pushAll_append, Matching.pushAll_concat]
      exact agrees_step ih (step_push _ t)

end

/-! ## §4. The end of the text. -/

/-- What holds while the lists that are open at the end of the text are closed: the
unclosed paren is flagged when the last of them is. -/
structure Closing (ts : List Token) (m : Matching) (r : Reading) : Prop where
  inside : r.stack ≠ [] → ParensAgree ts r.classes m.kinds
  outside : r.stack = [] → ParensAgree ts r.classes m.finish
  opened : r.stack.map OpenList.index <:+ m.opened
  plain : r.IsPlain ts

variable {ts : List Token} {r : Reading} {m : Matching}

theorem Agrees.closing (h : Agrees ts r m) (hf : r.flat = none) : Closing ts m r := by
  have hopened := h.opened
  rw [flatDepth_of_none hf] at hopened
  refine ⟨fun _ => h.parens, ?_, ?_, h.plain⟩
  · intro hs
    rw [hs] at hopened
    have ho : m.opened = [] := hopened
    have hfinish : m.finish = m.kinds := by
      rw [Matching.finish, ho]
      rfl
    rw [hfinish]
    exact h.parens
  · rw [← hopened]
    exact List.suffix_refl _

/-- A flat list is never the last one. -/
theorem Agrees.closing_closeFlat (h : Agrees ts r m) {f : FlatList} (hf : r.flat = some f)
    (stop : Position) : Closing ts m (r.closeFlat f stop false) := by
  obtain ⟨hstack, _, hclasses, hplain⟩ := closeFlat_plain hf h.plain stop false
  refine ⟨?_, ?_, ?_, hplain⟩
  · intro _
    rw [hclasses]
    exact h.parens
  · intro hs
    have hfull := h.capped.flat_at f hf
    rw [← List.length_map OpenList.index, ← hstack, hs] at hfull
    cases hfull
  · rw [hstack, ← h.opened]
    exact List.drop_suffix _ _

/-- Closing a list keeps this; the paren of the last one is flagged. -/
theorem Closing.close (h : Closing ts m r) {l : OpenList} {ls : List OpenList}
    (hs : r.stack = l :: ls) (stop : Position) : Closing ts m (r.close stop false) := by
  obtain ⟨hstack, hplain, marks, hmarks, hclasses⟩ := close_plain hs h.plain stop false
  have hparens : ParensAgree ts r.classes m.kinds := h.inside (by rw [hs]; exact List.cons_ne_nil _ _)
  have hopened := h.opened
  rw [hs] at hopened
  refine ⟨?_, ?_, ?_, hplain⟩
  · intro hne
    have hls : ls ≠ [] := by
      rintro rfl
      exact hne (List.map_eq_nil_iff.1 hstack)
    rw [hclasses, if_pos (by simp [hls])]
    exact hparens.mark hmarks
  · intro hnil
    rw [hnil] at hstack
    obtain rfl : ls = [] := List.map_eq_nil_iff.1 hstack.symm
    have hlast : m.opened.getLast? = some l.index := by
      obtain ⟨inner, ho⟩ := hopened
      rw [← ho]
      exact List.getLast?_concat
    have hfinish : m.finish = m.kinds.setIfInBounds l.index .unclosedParen := by
      rw [Matching.finish, hlast]
    rw [hclasses, hfinish]
    exact (hparens.flag l.index .unclosedParen).mark hmarks
  · rw [hstack]
    exact (List.suffix_cons l.index _).trans hopened

end Reading

/-- **Reading and matching agree on every paren of a token list.** -/
theorem parensAgree_read (ts : List Token) :
    ParensAgree ts (read ts).classes.toArray (balance ts).toArray := by
  have h := Reading.agrees_pushAll ts
  obtain ⟨hclosing, hs, _⟩ := Reading.closeAll_induction
    (P := Reading.Closing ts (Matching.begin.pushAll ts)) (stopOf ts)
    (fun f hf => h.closing_closeFlat hf (stopOf ts)) h.closing
    (fun r l ls _ hs hr => hr.close hs (stopOf ts))
  rw [balance_eq]
  exact hclosing.outside hs

/-! ## §5. Painting. -/

/-- Where a span is. -/
def Span.place (s : Span) : Position × Position := (s.start, s.stop)

/-- Whether spans show tokens with these kinds: each token in order where it is and with
its kind, but for white space. -/
inductive Shows : List Token → List Kind → List Span → Prop
  | nil : Shows [] [] []
  | blank {t : Token} {ts : List Token} {kind : Kind} {kinds : List Kind} {ss : List Span} :
      t.kind = .whitespace → Shows ts kinds ss → Shows (t :: ts) (kind :: kinds) ss
  | token {t : Token} {ts : List Token} {kinds : List Kind} {s : Span} {ss : List Span} :
      t.kind ≠ .whitespace → s.place = (t.start, t.stop) → Shows ts kinds ss →
        Shows (t :: ts) (s.kind :: kinds) (s :: ss)

theorem shows_spans {ts : List Token} {classes : List TokenClass}
    (h : classes.length = ts.length) :
    Shows ts (classes.map TokenClass.kind) (spans ts classes) := by
  induction ts generalizing classes with
  | nil =>
      obtain rfl := List.length_eq_zero_iff.1 h
      exact .nil
  | cons t ts ih =>
      obtain ⟨c, cs, rfl⟩ := List.exists_cons_of_length_eq_add_one h
      have hrest := ih (Nat.succ.inj h)
      unfold spans at hrest ⊢
      rw [List.zip_cons_cons, List.filter_cons]
      by_cases hk : t.kind = .whitespace
      · rw [if_neg (by simp [hk])]
        exact .blank hk hrest
      · rw [if_pos (by simp [hk])]
        exact .token (s := ⟨t.start, t.stop, c.kind, c.taint⟩) hk rfl hrest

theorem Shows.map_place {ts : List Token} {kinds : List Kind} {ss : List Span}
    (h : Shows ts kinds ss) :
    ss.map Span.place = (ts.filter (·.kind ≠ .whitespace)).map fun t => (t.start, t.stop) := by
  induction h with
  | nil => rfl
  | blank hk _ ih => rw [List.filter_cons_of_neg (by simp [hk]), ih]
  | token hk hplace _ ih =>
      rw [List.filter_cons_of_pos (by simp [hk]), List.map_cons, List.map_cons, hplace, ih]

/-- What holds of the kinds of the parens alone holds of both. -/
theorem FlagsParens.congr {ts : List Token} {kinds kinds' : List Kind} (h : FlagsParens ts kinds)
    (heq : ∀ (i : Nat) (t : Token), ts[i]? = some t → t.kind.isParen = true →
      kinds'[i]? = kinds[i]?) : FlagsParens ts kinds' := by
  refine ⟨?_, ?_, ?_⟩
  · intro i t ht hk
    rw [heq i t ht (by rw [hk]; rfl)]
    exact h.close i t ht hk
  · intro i t ht hk hi
    rw [heq i t ht (by rw [hk]; rfl)]
    exact h.unclosed i t ht hk hi
  · intro i t ht hk hi
    rw [heq i t ht (by rw [hk]; rfl)]
    exact h.closed i t ht hk hi

/-- **Both ways to paint a text agree on its parens, and both are right**: they paint
the same places in the same order, with the kinds that matching and reading give; every
paren has the same kind in both; a
close paren is flagged if and only if nothing is open before it; an open paren
if and only if it is the first that stays open, so that at most one is. -/
theorem paints_agree (text : String) :
    (quickPaint text).map Span.place = (paint text).map Span.place
      ∧ Shows (tokenize text) (balance (tokenize text)) (quickPaint text)
      ∧ Shows (tokenize text) ((read (tokenize text)).classes.map TokenClass.kind) (paint text)
      ∧ (∀ (i : Nat) (t : Token), (tokenize text)[i]? = some t → t.kind.isParen = true →
          (balance (tokenize text))[i]?
            = ((read (tokenize text)).classes.map TokenClass.kind)[i]?)
      ∧ FlagsParens (tokenize text) (balance (tokenize text))
      ∧ FlagsParens (tokenize text) ((read (tokenize text)).classes.map TokenClass.kind)
      ∧ ∀ i j, IsUnclosed (tokenize text) i → IsUnclosed (tokenize text) j → i = j := by
  have hagree : ∀ (i : Nat) (t : Token), (tokenize text)[i]? = some t → t.kind.isParen = true →
      ((read (tokenize text)).classes.map TokenClass.kind)[i]? = (balance (tokenize text))[i]? := by
    intro i t ht hparen
    have h := (parensAgree_read (tokenize text)).agree i t ht hparen
    rw [List.getElem?_toArray, List.getElem?_toArray] at h
    rw [List.getElem?_map]
    exact h
  have hflags := flagsParens_balance (tokenize text)
  have hquick : ((balance (tokenize text)).map fun k => (⟨k, .none⟩ : TokenClass)).length
      = (tokenize text).length := by
    rw [List.length_map, length_balance]
  have hkinds : ((balance (tokenize text)).map fun k => (⟨k, .none⟩ : TokenClass)).map
      TokenClass.kind = balance (tokenize text) := by
    rw [List.map_map]
    exact List.map_id _
  have hmatched := shows_spans hquick
  rw [hkinds] at hmatched
  have hread := shows_spans (length_classes_read (tokenize text))
  exact ⟨hmatched.map_place.trans hread.map_place.symm, hmatched, hread,
    fun i t ht hparen => (hagree i t ht hparen).symm, hflags, hflags.congr hagree,
    fun i j => IsUnclosed.unique⟩

/-- A stray close paren, and an open paren that is not closed although one behind it
is. -/
theorem paints_agree_unbalanced :
    let ts := tokenize "a) (b (c)"
    let kinds := (read ts).classes.map TokenClass.kind
    IsUnclosed ts 3 ∧ kinds[3]? = some .unclosedParen ∧ kinds[1]? = some .strayParen
      ∧ (balance ts)[3]? = kinds[3]? := by
  intro ts kinds
  have hopen : ts[3]? = some (.opening ⟨0, 3⟩) := by decide
  have hclose : ts[1]? = some (.closing ⟨0, 2⟩) := by decide
  have hunclosed : IsUnclosed ts 3 := by decide
  have hzero : nesting (ts.take 1) = 0 := by decide
  obtain ⟨_, _, _, hagree, _, hflags, _⟩ := paints_agree "a) (b (c)"
  have hstray := hflags.close 1 _ hclose rfl
  rw [if_pos hzero] at hstray
  exact ⟨hunclosed, hflags.unclosed 3 _ hopen rfl hunclosed, hstray, hagree 3 _ hopen rfl⟩

end LispLink.Source
