/-
  LispLink.Proofs.Source.Taints
  ────────────────────────────────
  **WHAT IS DATA IS LEFT ALONE.**

  The rules by which tokens are read say which taint every expression has and
  which its tokens have.  Recognition, which puts other kinds on tokens, looks at
  lists of code only, and marks nothing outside the list it looks at:

      a list with a role      is code
      a token with a mark     is inside a list of code

  So whatever is inside data all the way up keeps the kind it was scanned with,
  but for a paren without a partner.
-/
import LispLink.Proofs.Source.Flags
import LispLink.Proofs.Source.Grammar

namespace LispLink.Source

/-! ## §1. Inside a list. -/

/-- The role of a list; an atom has none. -/
def Sexp.role : Sexp → Role
  | .atom _ => .plain
  | .list _ role _ => role

/-- Whether the token with this index is an atom somewhere inside the list. -/
def Sexp.Encloses (e : Sexp) (i : Nat) : Prop :=
  i ∈ (Sexp.allAtoms e.elements).map Atom.index

instance (e : Sexp) (i : Nat) : Decidable (e.Encloses i) :=
  inferInstanceAs (Decidable (i ∈ (Sexp.allAtoms e.elements).map Atom.index))

theorem Taint.eq_none_of_not_isData {t : Taint} (h : ¬ t.isData = true) : t = .none := by
  obtain ⟨quoted, backquoted⟩ := t
  cases quoted <;> cases backquoted <;> first | rfl | exact absurd rfl h

namespace Recognition

/-- Data is not recognised. -/
theorem ofList_of_isData {t : Taint} (h : t.isData = true) (es : List Sexp) :
    ofList t es = plain := if_pos h

theorem eq_none_of_role {t : Taint} {es : List Sexp} (h : (ofList t es).role ≠ .plain) :
    t = .none := by
  refine Taint.eq_none_of_not_isData fun ht => h ?_
  rw [ofList_of_isData ht]
  rfl

theorem eq_none_of_mem_marks {t : Taint} {es : List Sexp} {m : Mark}
    (h : m ∈ (ofList t es).marks) : t = .none := by
  refine Taint.eq_none_of_not_isData fun ht => ?_
  rw [ofList_of_isData ht] at h
  cases h

end Recognition

/-- **A list with a role is code.** -/
theorem IsRead.eq_none_of_role {ts : List Token} {us : List Taint} {o : Outline} {role : Role}
    {es : List Sexp} (h : IsRead ts us o role es) (hrole : role ≠ .plain) : o.taint = .none := by
  cases h with
  | tree => exact Recognition.eq_none_of_role hrole
  | flat => exact absurd rfl hrole

/-! ## §2. Kinds that are kept. -/

namespace Reading

/-- The complete expressions of a reading, those inside open lists included. -/
def parts (r : Reading) : List Sexp := r.forms ++ r.stack.flatMap OpenList.elements

/-- Whether the class of token `i` has the kind of `t`, or the token is inside a list
of code. -/
def KeepsKind (r : Reading) (i : Nat) (t : Token) : Prop :=
  r.classes[i]?.map TokenClass.kind = some t.kind
    ∨ ∃ e ∈ Sexp.allNodes r.parts, e.taint = .none ∧ e.Encloses i

/-- What holds of the kinds behind the first tokens of `ts`.  Of the parens it is
only said which of them belong to open lists. -/
structure KeepsKinds (ts : List Token) (r : Reading) : Prop where
  parens : ∀ i ∈ r.stack.map OpenList.index, ∃ t, ts[i]? = some t ∧ t.kind = .openParen
  kinds : ∀ i t, i < r.classes.size → ts[i]? = some t → t.kind.isParen = false → r.KeepsKind i t

variable {ts : List Token} {r q : Reading}

theorem mem_allNodes_parts_add {x e : Sexp} :
    x ∈ Sexp.allNodes (r.add e).parts ↔ x ∈ e.nodes ∨ x ∈ Sexp.allNodes r.parts := by
  have hparts : ∀ y, y ∈ (r.add e).parts ↔ y = e ∨ y ∈ r.parts := by
    intro y
    unfold parts add
    cases r.stack with
    | nil => simp
    | cons l ls =>
        simp only [List.mem_append, List.flatMap_cons, List.mem_cons]
        tauto
  simp only [Sexp.mem_allNodes, hparts, or_and_right, exists_or, exists_eq_left]

/-- The kind of a class changes only if a mark is put on the token. -/
theorem getElem?_mark (classes : Array TokenClass) {marks : List Mark} {i : Nat}
    (h : ∀ m ∈ marks, m.index ≠ i) : (mark classes marks)[i]? = classes[i]? := by
  induction marks generalizing classes with
  | nil => rfl
  | cons m ms ih =>
      show (mark (classes.modify m.index ({ · with kind := m.kind })) ms)[i]? = _
      rw [ih _ fun m' hm' => h m' (List.mem_cons_of_mem m hm'), Array.getElem?_modify,
        if_neg (h m List.mem_cons_self)]

/-- A token that gets the class of its own kind. -/
theorem KeepsKinds.push (h : KeepsKinds ts r) {t : Token} (ht : ts[r.classes.size]? = some t)
    {c : TokenClass} (hclasses : q.classes = r.classes.push c)
    (hc : t.kind.isParen = false → c.kind = t.kind)
    (hparens : ∀ i ∈ q.stack.map OpenList.index,
      i ∈ r.stack.map OpenList.index ∨ (i = r.classes.size ∧ t.kind = .openParen))
    (hparts : q.parts = r.parts) : KeepsKinds ts q := by
  refine ⟨?_, ?_⟩
  · intro i hi
    rcases hparens i hi with hi | ⟨rfl, hk⟩
    · exact h.parens i hi
    · exact ⟨t, ht, hk⟩
  · intro i u hi hu hplain
    rw [hclasses, Array.size_push] at hi
    unfold KeepsKind
    rw [hclasses, hparts, Array.getElem?_push]
    rcases Nat.lt_succ_iff_lt_or_eq.1 hi with hi | rfl
    · rw [if_neg (Nat.ne_of_lt hi)]
      exact h.kinds i u hi hu hplain
    · rw [ht] at hu
      cases hu
      rw [if_pos rfl]
      exact .inl (congrArg some (hc hplain))

/-- A complete expression changes no kind. -/
theorem KeepsKinds.add (h : KeepsKinds ts r) (e : Sexp) : KeepsKinds ts (r.add e) := by
  refine ⟨?_, ?_⟩
  · rw [map_index_add]
    exact h.parens
  · intro i t hi ht hplain
    rw [classes_add] at hi
    unfold KeepsKind
    rw [classes_add]
    refine (h.kinds i t hi ht hplain).imp_right ?_
    rintro ⟨x, hx, hcode⟩
    exact ⟨x, mem_allNodes_parts_add.2 (.inr hx), hcode⟩

section

variable {l : OpenList} {ls : List OpenList} (hs : r.stack = l :: ls) (stop : Position)
  (closed : Bool)
include hs

/-- Closing a list makes an expression of it, with all that was inside. -/
theorem mem_allNodes_parts_close {x : Sexp} :
    x ∈ Sexp.allNodes (r.close stop closed).parts ↔
      x = .list ⟨l.start, stop, closed, l.taint⟩
          (Recognition.ofList l.taint l.elements.reverse).role l.elements.reverse
        ∨ x ∈ Sexp.allNodes r.parts := by
  unfold Reading.close
  rw [hs]
  rw [mem_allNodes_parts_add, Sexp.mem_nodes_list, or_assoc]
  refine or_congr_right ?_
  simp only [Sexp.mem_allNodes, parts, hs, List.flatMap_cons, List.mem_append, List.mem_reverse,
    or_and_right, exists_or]
  exact or_left_comm

theorem classes_close : (r.close stop closed).classes =
    mark (if closed || !ls.isEmpty then r.classes else mark r.classes [⟨l.index, .unclosedParen⟩])
      (Recognition.ofList l.taint l.elements.reverse).marks := by
  unfold Reading.close
  rw [hs]
  exact classes_add _ _

theorem map_index_close : (r.close stop closed).stack.map OpenList.index
    = ls.map OpenList.index := by
  unfold Reading.close
  rw [hs]
  exact map_index_add _ _

/-- **Closing a list changes the kinds of its own atoms only, and only if it is
code.** -/
theorem KeepsKinds.close (h : KeepsKinds ts r) : KeepsKinds ts (r.close stop closed) := by
  have hparens := h.parens
  rw [hs, List.map_cons] at hparens
  refine ⟨?_, ?_⟩
  · rw [map_index_close hs]
    exact fun i hi => hparens i (List.mem_cons_of_mem _ hi)
  · intro i t hi ht hplain
    rw [size_classes_close] at hi
    unfold KeepsKind
    rw [classes_close hs]
    by_cases hmark : ∃ m ∈ (Recognition.ofList l.taint l.elements.reverse).marks, m.index = i
    · -- the token is inside the list itself
      obtain ⟨m, hm, rfl⟩ := hmark
      obtain ⟨a, ha, hindex⟩ := Recognition.marksWithin_ofList _ _ m hm
      refine .inr ⟨_, (mem_allNodes_parts_close hs stop closed).2 (.inl rfl), ?_, ?_⟩
      · exact Recognition.eq_none_of_mem_marks hm
      · exact hindex ▸ List.mem_map_of_mem ha
    · -- its class is as it was, since the flag is on a paren
      have hflag : l.index ≠ i := by
        rintro rfl
        obtain ⟨u, hu, hk⟩ := hparens l.index List.mem_cons_self
        rw [ht] at hu
        cases hu
        rw [hk] at hplain
        cases hplain
      rw [getElem?_mark _ fun m hm hi => hmark ⟨m, hm, hi⟩]
      refine (h.kinds i t hi ht hplain).imp ?_ ?_
      · intro hclass
        split
        · exact hclass
        · rw [getElem?_mark _ fun m hm => List.mem_singleton.1 hm ▸ hflag]
          exact hclass
      · rintro ⟨x, hx, hcode⟩
        exact ⟨x, (mem_allNodes_parts_close hs stop closed).2 (.inr hx), hcode⟩

end

/-- **Reading one more token keeps the kinds**, but for marks inside code. -/
theorem keepsKinds_push {t : Token} (ht : ts[r.classes.size]? = some t) (h : KeepsKinds ts r) :
    KeepsKinds ts (r.push t) := by
  have hstep := r.step_push t
  generalize r.push t = q at hstep
  -- the stack may be as it was, or have one more list
  have hsame : ∀ {stack : List OpenList}, stack = r.stack → ∀ i ∈ stack.map OpenList.index,
      i ∈ r.stack.map OpenList.index ∨ (i = r.classes.size ∧ t.kind = .openParen) :=
    fun hs i hi => .inl (hs ▸ hi)
  have hparen : ∀ {c : TokenClass}, t.kind = .openParen ∨ t.kind = .closeParen →
      t.kind.isParen = false → c.kind = t.kind := by
    intro c hk hplain
    rw [Kind.isParen_iff.2 hk] at hplain
    cases hplain
  cases hstep with
  | trivia | operator | flatAtom => exact h.push ht rfl (fun _ => rfl) (hsame rfl) rfl
  | atom =>
      exact (h.push (q := r.classed t.kind r.next) ht rfl (fun _ => rfl) (hsame rfl) rfl).add _
  | stray hk =>
      exact (h.push (q := r.classed .strayParen .none) ht rfl (hparen (.inr hk)) (hsame rfl)
        rfl).add _
  | opens hk =>
      refine h.push ht rfl (hparen (.inl hk)) ?_ rfl
      intro i hi
      rcases List.mem_cons.1 hi with rfl | hi
      · exact .inr ⟨rfl, hk⟩
      · exact .inl hi
  | opensFlat hk | opensInner _ hk => exact h.push ht rfl (hparen (.inl hk)) (hsame rfl) rfl
  | closesInner _ _ hk => exact h.push ht rfl (hparen (.inr hk)) (hsame rfl) rfl
  | closes l ls hk hf hs =>
      exact (h.push (q := r.classed .closeParen l.taint) ht rfl (hparen (.inr hk)) (hsame rfl)
        rfl).close (r := r.classed .closeParen l.taint) hs _ _
  | closesFlat f hk =>
      exact (h.push (q := { r.classed .closeParen f.taint with flat := none }) ht rfl
        (hparen (.inr hk)) (hsame rfl) rfl).add _

end Reading

/-- **Only inside code a token that is no paren gets another kind.** -/
theorem keepsKind_read (ts : List Token) {i : Nat} {t : Token} (ht : ts[i]? = some t)
    (hplain : t.kind.isParen = false) :
    (read ts).classes[i]?.map TokenClass.kind = some t.kind
      ∨ ∃ e ∈ Sexp.allNodes (read ts).forms, e.taint = .none ∧ e.Encloses i := by
  have hpush : Reading.KeepsKinds ts (Reading.begin.pushAll ts) :=
    Reading.pushAll_induction ⟨fun _ hi => (nomatch hi), fun _ _ hi => (nomatch hi)⟩
      fun r t _ ht h => Reading.keepsKinds_push ht h
  obtain ⟨hclose, hstack, _⟩ := Reading.closeAll_induction (P := Reading.KeepsKinds ts) (stopOf ts)
    (fun f _ => Reading.KeepsKinds.add (r := { Reading.begin.pushAll ts with flat := none })
      ⟨hpush.parens, hpush.kinds⟩ _)
    (fun _ => hpush) fun r l ls _ hs h => h.close hs (stopOf ts) false
  have hi : i < ((Reading.begin.pushAll ts).closeAll (stopOf ts)).classes.size := by
    rw [← Array.length_toList]
    exact (length_classes_read ts).symm ▸ (List.getElem?_eq_some_iff.1 ht).1
  refine (hclose.kinds i t hi ht hplain).imp ?_ ?_
  · intro h
    rw [← Array.getElem?_toList] at h
    exact h
  · -- outside all lists the complete expressions are the forms
    rintro ⟨e, he, hcode⟩
    refine ⟨e, ?_, hcode⟩
    rw [Reading.parts, hstack, List.flatMap_nil, List.append_nil] at he
    obtain ⟨f, hf, he⟩ := Sexp.mem_allNodes.1 he
    exact Sexp.mem_allNodes.2 ⟨f, List.mem_reverse.2 hf, he⟩

/-- Classes flag the parens that are to be flagged, and no others. -/
theorem flagsParens_read (ts : List Token) :
    FlagsParens ts ((read ts).classes.map TokenClass.kind) := by
  refine (flagsParens_balance ts).congr fun i t ht hparen => ?_
  have h := (parensAgree_read ts).agree i t ht hparen
  rw [List.getElem?_toArray, List.getElem?_toArray] at h
  rw [List.getElem?_map]
  exact h

/-! ## §3. Taints. -/

/-- **Quoting goes down the expressions and nowhere else.**  Tokens are read by the
rules, which say that every expression has the taint of the list around it,
changed by the prefix operators directly before it, except that a close paren
with nothing to close is code; and that atoms and parens have the taint of what
they are read as, operators the taint before they change it, and trivia none.
A list with a role is code.  A token that is inside no list of code has the kind
that it was scanned with, unless it is a paren that is flagged. -/
theorem read_taints (ts : List Token) :
    (∃ j u, Row ts ((read ts).classes.map TokenClass.taint) 0 .none 0 j (read ts).forms
        ∧ Lead ts ((read ts).classes.map TokenClass.taint) j .none ts.length u)
      ∧ (∀ e ∈ Sexp.allNodes (read ts).forms, e.role ≠ .plain → e.taint = .none)
      ∧ ∀ i t, ts[i]? = some t → ¬ IsUnclosed ts i →
          ¬ (t.kind = .closeParen ∧ nesting (ts.take i) = 0) →
          (∀ e ∈ Sexp.allNodes (read ts).forms, e.Encloses i → e.taint ≠ .none) →
          (read ts).classes[i]?.map TokenClass.kind = some t.kind := by
  obtain ⟨j, u, row, hl⟩ := row_read ts
  refine ⟨⟨j, u, row, hl⟩, ?_, ?_⟩
  · intro e he hrole
    cases e with
    | atom a => exact absurd rfl hrole
    | list o role es => exact (row.isRead o role es he).eq_none_of_role hrole
  · intro i t ht hunclosed hstray hdata
    have hflags := flagsParens_read ts
    by_cases hparen : t.kind.isParen = true
    · rw [← List.getElem?_map]
      rcases Kind.isParen_iff.1 hparen with hk | hk
      · rw [hflags.closed i t ht hk hunclosed, hk]
      · rw [hflags.close i t ht hk, if_neg fun hzero => hstray ⟨hk, hzero⟩, hk]
    · refine (keepsKind_read ts ht (Bool.eq_false_iff.2 hparen)).resolve_right ?_
      rintro ⟨e, he, hcode, hinside⟩
      exact hdata e he hinside hcode

/-- A `let` behind a backquote is data and binds no name; the list behind the comma in
it is code again, and its head names a function. -/
theorem read_taints_backquoted :
    let ts := tokenize "`(let ((a 1)) ,(f b))"
    (∀ e ∈ Sexp.allNodes (read ts).forms, e.role ≠ .plain → e.taint = .none)
      ∧ (read ts).classes[6]?.map TokenClass.kind = ts[6]?.map Token.kind
      ∧ (read ts).classes[14]?.map TokenClass.kind = some .functionName := by
  intro ts
  obtain ⟨t, ht⟩ : ∃ t, ts[6]? = some t := Option.isSome_iff_exists.1 (by decide +kernel)
  have hunclosed : ¬ IsUnclosed ts 6 := by decide +kernel
  have hnesting : nesting (ts.take 6) ≠ 0 := by decide +kernel
  have hdata : ∀ e ∈ Sexp.allNodes (read ts).forms, e.Encloses 6 → e.taint ≠ .none := by
    decide +kernel
  obtain ⟨_, hroles, hkinds⟩ := read_taints ts
  refine ⟨hroles, ?_, by decide +kernel⟩
  rw [ht]
  exact hkinds 6 t ht hunclosed (fun h => hnesting h.2) hdata

/-- Behind a quote a close paren with nothing to close is code all the same. -/
theorem stray_is_not_quoted :
    let ts := tokenize "')"
    ∃ a, (read ts).forms.map Sexp.atom? = [some a]
      ∧ Lead ts ((read ts).classes.map TokenClass.taint) 0 .none a.index ⟨true, false⟩
      ∧ a.taint ≠ ⟨true, false⟩ := by
  intro ts
  refine ⟨⟨⟨.closeParen, ⟨0, 1⟩, ⟨0, 2⟩, ")"⟩, 1, .none⟩, by decide +kernel, ?_, by decide⟩
  exact .operator (x := ⟨.quote, ⟨0, 0⟩, ⟨0, 1⟩, "'"⟩) .start ⟨by decide +kernel, by decide +kernel⟩
    rfl

end LispLink.Source
