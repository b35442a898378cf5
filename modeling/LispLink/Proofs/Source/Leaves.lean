/-
  LispLink.Proofs.Source.Leaves
  ────────────────────────────────
  **NO TOKEN IS LOST AND NONE IS READ TWICE.**

  The atoms of the forms of a text, in the order in which a walk finds them, are
  tokens of the text in its order.  These tokens are leaves:

      any token          that is no trivia, paren or prefix operator
      a close paren      without a partner
      a prefix operator  in a list that is read flat

  In a text where no list is read flat, the forms also tell where the parens
  stand: written out again, they are the tokens of the text without trivia and
  prefix operators.
-/
import LispLink.Proofs.Source.Walk

namespace LispLink.Source

/-! ## §1. Atoms. -/

mutual

/-- The atoms of an expression, in the order of the text. -/
def Sexp.atoms : Sexp → List Atom
  | .atom a => [a]
  | .list _ _ es => Sexp.allAtoms es

/-- The atoms of expressions one after the other. -/
def Sexp.allAtoms : List Sexp → List Atom
  | [] => []
  | e :: es => e.atoms ++ Sexp.allAtoms es

end

theorem Sexp.mem_allAtoms {a : Atom} {es : List Sexp} :
    a ∈ allAtoms es ↔ ∃ e ∈ es, a ∈ e.atoms := by
  induction es with
  | nil => simp [allAtoms]
  | cons e es ih => simp [allAtoms, ih]

theorem Sexp.mem_atoms_of_atom? {e : Sexp} {a : Atom} (h : e.atom? = some a) : a ∈ e.atoms := by
  cases e with
  | atom b =>
      cases h
      exact List.mem_singleton_self a
  | list o role es => cases h

theorem Sexp.mem_atoms_of_list? {e : Sexp} {es : List Sexp} (h : e.list? = some es) {a : Atom}
    (ha : a ∈ allAtoms es) : a ∈ e.atoms := by
  cases e with
  | atom b => cases h
  | list o role es' =>
      cases h
      exact ha

/-- The head of a list is one of its atoms. -/
theorem Sexp.mem_allAtoms_of_head {es : List Sexp} {a : Atom}
    (h : es.head?.bind atom? = some a) : a ∈ allAtoms es := by
  obtain ⟨e, he, ha⟩ := Option.bind_eq_some_iff.1 h
  exact mem_allAtoms.2 ⟨e, List.mem_of_head? he, mem_atoms_of_atom? ha⟩

/-- Write the token of every atom with its index. -/
def leafPen : Pen (Token × Nat) := ⟨fun t i => [(t, i)], fun _ => [], fun _ => []⟩

mutual

theorem Sexp.walk_leafPen (e : Sexp) :
    e.walk leafPen = e.atoms.map fun a => (a.token, a.index) := by
  cases e with
  | atom a => rfl
  | list o role es =>
      show [] ++ walkAll leafPen es ++ (if o.closed then [] else []) = _
      rw [walkAll_leafPen es, ite_self, List.append_nil]
      rfl

theorem Sexp.walkAll_leafPen (es : List Sexp) :
    walkAll leafPen es = (allAtoms es).map fun a => (a.token, a.index) := by
  cases es with
  | nil => rfl
  | cons e es =>
      show e.walk leafPen ++ walkAll leafPen es = (e.atoms ++ allAtoms es).map _
      rw [walk_leafPen e, walkAll_leafPen es, List.map_append]

end

/-! ## §2. Leaves. -/

/-- Whether a token is an atom of what is read, if `n` parens are open before it. -/
def Token.IsLeaf (n : Nat) (t : Token) : Prop :=
  t.kind.isAtomic = true ∨ (t.kind = .closeParen ∧ n = 0)
    ∨ (t.kind.isOperator = true ∧ maxDepth < n)

/-- Whether the token with this index is an atom of what is read: it is no trivia,
paren or prefix operator; or a close paren without a partner; or a prefix
operator inside more parens than are read as a tree. -/
def IsLeafAt (ts : List Token) (i : Nat) : Prop :=
  ∃ t, ts[i]? = some t ∧ t.IsLeaf (nesting (ts.take i))

section

variable {n i : Nat} {t : Token}

theorem mem_output_leafPen {p : Token × Nat} :
    p ∈ leafPen.output n i t ↔ p = (t, i) ∧ t.IsLeaf n := by
  unfold Token.IsLeaf
  rcases t.kind.cases with hk | hk | hk | hk | hk
  · rw [Pen.output_trivia _ hk]
    have hatomic : ¬ t.kind.isAtomic = true := fun h => Kind.not_isTrivia_of_isAtomic h hk
    have hparen := Kind.isParen_of_isTrivia hk
    have hclose : t.kind ≠ .closeParen := by
      intro h
      rw [h] at hparen
      cases hparen
    have hoperator : ¬ t.kind.isOperator = true := by
      rw [Kind.isOperator_iff]
      rintro (h | h | h) <;> rw [h] at hk <;> cases hk
    simp [hatomic, hclose, hoperator]
  · rw [Pen.output_operator _ hk]
    have hatomic : ¬ t.kind.isAtomic = true := by
      intro h
      rcases Kind.isOperator_iff.1 hk with hk | hk | hk <;> rw [hk] at h <;> cases h
    have hclose : t.kind ≠ .closeParen := by
      intro h
      rw [h] at hk
      cases hk
    by_cases hn : n ≤ maxDepth
    · simp [hn, hatomic, hclose]
    · simp [hn, hatomic, hclose, hk, leafPen, Nat.lt_of_not_le hn]
  · rw [Pen.output_atomic _ hk]
    simp [hk, leafPen]
  · rw [Pen.output_openParen _ hk, hk]
    simp [leafPen, Kind.isAtomic, Kind.isOperator]
  · rw [Pen.output_closeParen _ hk, hk]
    by_cases hn : n = 0
    · simp [hn, leafPen]
    · simp [hn, leafPen, Kind.isAtomic, Kind.isOperator]

/-- **A walk from any place on finds the leaves behind it.** -/
theorem mem_outputs_leafPen {ts : List Token} {j : Nat} :
    (t, j) ∈ leafPen.outputs n i ts ↔
      ∃ k, j = i + k ∧ ts[k]? = some t ∧ t.IsLeaf (nestingFrom n (ts.take k)) := by
  induction ts generalizing n i with
  | nil => simp [Pen.outputs]
  | cons t₀ ts ih =>
      rw [Pen.outputs, List.mem_append, mem_output_leafPen, ih]
      constructor
      · rintro (⟨heq, hleaf⟩ | ⟨k, hj, hk, hleaf⟩)
        · cases heq
          exact ⟨0, rfl, rfl, hleaf⟩
        · exact ⟨k + 1, by omega, hk, hleaf⟩
      · rintro ⟨k, hj, hk, hleaf⟩
        cases k with
        | zero =>
            left
            cases hk
            exact ⟨by rw [hj]; rfl, hleaf⟩
        | succ k =>
            right
            exact ⟨k, by omega, hk, hleaf⟩

theorem output_leafPen_sublist (n i : Nat) (t : Token) :
    ((leafPen.output n i t).map Prod.snd).Sublist [i] := by
  rcases t.kind.cases with hk | hk | hk | hk | hk
  · rw [Pen.output_trivia _ hk]
    exact List.nil_sublist _
  · rw [Pen.output_operator _ hk]
    split
    · exact List.nil_sublist _
    · exact List.Sublist.refl _
  · rw [Pen.output_atomic _ hk]
    exact List.Sublist.refl _
  · rw [Pen.output_openParen _ hk]
    split <;> exact List.nil_sublist _
  · rw [Pen.output_closeParen _ hk]
    split
    · exact List.Sublist.refl _
    · split <;> exact List.nil_sublist _

/-- Every token is written at most once, in the order of the text. -/
theorem outputs_leafPen_sublist (n i : Nat) (ts : List Token) :
    ((leafPen.outputs n i ts).map Prod.snd).Sublist (List.range' i ts.length) := by
  induction ts generalizing n i with
  | nil => exact List.Sublist.refl _
  | cons t ts ih =>
      rw [Pen.outputs, List.map_append, List.length_cons, List.range'_succ]
      exact (output_leafPen_sublist n i t).append (ih (t.kind.nest n) (i + 1))

end

/-- **The atoms of a token list are its leaves, in order.** -/
theorem atoms_read (ts : List Token) :
    ((Sexp.allAtoms (read ts).forms).map Atom.index).Pairwise (· < ·)
      ∧ (∀ a ∈ Sexp.allAtoms (read ts).forms, ts[a.index]? = some a.token)
      ∧ ∀ i, i ∈ (Sexp.allAtoms (read ts).forms).map Atom.index ↔ IsLeafAt ts i := by
  have hwalk : (Sexp.allAtoms (read ts).forms).map (fun a => (a.token, a.index))
      = leafPen.outputs 0 0 ts := by
    rw [← Sexp.walkAll_leafPen, walkAll_read]
  have hindex : (Sexp.allAtoms (read ts).forms).map Atom.index
      = (leafPen.outputs 0 0 ts).map Prod.snd := by
    rw [← hwalk, List.map_map]
    rfl
  refine ⟨?_, ?_, ?_⟩
  · rw [hindex]
    exact List.Pairwise.sublist (outputs_leafPen_sublist 0 0 ts) (List.pairwise_lt_range' 1)
  · intro a ha
    have hmem : (a.token, a.index) ∈ leafPen.outputs 0 0 ts := by
      rw [← hwalk]
      exact List.mem_map_of_mem ha
    obtain ⟨k, hk, htoken, _⟩ := mem_outputs_leafPen.1 hmem
    rw [hk, Nat.zero_add]
    exact htoken
  · intro i
    rw [hindex, List.mem_map]
    constructor
    · rintro ⟨⟨t, j⟩, hmem, rfl⟩
      obtain ⟨k, hk, htoken, hleaf⟩ := mem_outputs_leafPen.1 hmem
      rw [Nat.zero_add] at hk
      subst hk
      exact ⟨t, htoken, hleaf⟩
    · rintro ⟨t, htoken, hleaf⟩
      exact ⟨(t, i), mem_outputs_leafPen.2 ⟨i, (Nat.zero_add i).symm, htoken, hleaf⟩, rfl⟩

/-! ## §3. Parens as they are written. -/

/-- The open paren that starts at a place. -/
def Token.opening (p : Position) : Token := ⟨.openParen, p, p.after '(', "("⟩

/-- The close paren that stops at a place. -/
def Token.closing (p : Position) : Token := ⟨.closeParen, ⟨p.line, p.col - 1⟩, p, ")"⟩

/-- Whether a token that is a paren looks like one. -/
def Token.SpellsParen (t : Token) : Prop :=
  (t.kind = .openParen → t.text = "(") ∧ (t.kind = .closeParen → t.text = ")")

namespace Lexeme

/-- No character turns a token into a paren. -/
theorem step_ne_paren {s q : Lexeme} {c : Char} (h : s.step c = some q) :
    q ≠ openParen ∧ q ≠ closeParen := by
  unfold step stepRun stepBlock stepDatum at h
  constructor <;> rintro rfl <;> split at h <;> grind

theorem start_openParen {c : Char} (h : start c = openParen) : c = '(' := by
  grind [start]

theorem start_closeParen {c : Char} (h : start c = closeParen) : c = ')' := by
  grind [start]

/-- Only the automaton's parens are parens. -/
theorem eq_of_isParen_kind {s : Lexeme} {text : String} (h : (s.kind text).isParen = true) :
    s = openParen ∨ s = closeParen := by
  cases s with
  | openParen => exact .inl rfl
  | closeParen => exact .inr rfl
  | word =>
      have hword := Kind.isParen_of_isAtomic (Kind.isAtomic_ofWord text)
      exact absurd (hword.symm.trans h) Bool.false_ne_true
  | fenced f _ => cases f <;> cases h
  | fenceClosed f => cases f <;> cases h
  | _ => cases h

end Lexeme

namespace OpenToken

/-- Whether a token in progress that is a paren looks like one. -/
def SpellsParen (t : OpenToken) : Prop :=
  (t.lexeme = .openParen → t.text = "(") ∧ (t.lexeme = .closeParen → t.text = ")")

theorem spellsParen_start1 (p : Position) (c : Char) : (start1 p c).SpellsParen := by
  constructor
  · intro h
    show String.singleton c = "("
    rw [Lexeme.start_openParen h]
    rfl
  · intro h
    show String.singleton c = ")"
    rw [Lexeme.start_closeParen h]
    rfl

theorem spellsParen_extend {t : OpenToken} {q : Lexeme} {c : Char}
    (h : t.lexeme.step c = some q) : (t.extend q c).SpellsParen := by
  obtain ⟨hopen, hclose⟩ := Lexeme.step_ne_paren h
  exact ⟨fun hq => absurd hq hopen, fun hq => absurd hq hclose⟩

theorem spellsParen_close {t : OpenToken} (h : t.SpellsParen) : t.close.SpellsParen := by
  have hkind : t.close.kind = t.lexeme.kind t.text := rfl
  constructor
  · intro hk
    have hparen : (t.lexeme.kind t.text).isParen = true := by rw [← hkind, hk]; rfl
    rcases Lexeme.eq_of_isParen_kind hparen with hs | hs
    · exact h.1 hs
    · rw [hkind, hs] at hk
      cases hk
  · intro hk
    have hparen : (t.lexeme.kind t.text).isParen = true := by rw [← hkind, hk]; rfl
    rcases Lexeme.eq_of_isParen_kind hparen with hs | hs
    · rw [hkind, hs] at hk
      cases hk
    · exact h.2 hs

end OpenToken

namespace Lexing

/-- Whether all parens that have been read look like parens. -/
structure SpellsParens (s : Lexing) : Prop where
  done : ∀ t ∈ s.done.toList, t.SpellsParen
  current : ∀ t, s.current = some t → t.SpellsParen

theorem spellsParens_push {s : Lexing} (h : s.SpellsParens) (c : Char) :
    (s.push c).SpellsParens := by
  obtain ⟨done, current⟩ := s
  obtain ⟨hdone, hcurrent⟩ := h
  cases current with
  | none =>
      refine ⟨hdone, ?_⟩
      rintro t ⟨⟩
      exact OpenToken.spellsParen_start1 _ _
  | some t =>
      cases hs : t.lexeme.step c with
      | some q =>
          have hpush : push ⟨done, some t⟩ c = ⟨done, some (t.extend q c)⟩ := by
            simp only [push, hs]
          rw [hpush]
          refine ⟨hdone, ?_⟩
          rintro u ⟨⟩
          exact OpenToken.spellsParen_extend hs
      | none =>
          have hpush : push ⟨done, some t⟩ c = ⟨done.push t.close, some (.start1 t.stop c)⟩ := by
            simp only [push, hs]
          rw [hpush]
          constructor
          · intro u hu
            rw [Array.toList_push] at hu
            rcases List.mem_append.1 hu with hu | hu
            · exact hdone u hu
            · rw [List.mem_singleton.1 hu]
              exact OpenToken.spellsParen_close (hcurrent t rfl)
          · rintro u ⟨⟩
            exact OpenToken.spellsParen_start1 _ _

theorem spellsParens_pushAll {s : Lexing} (h : s.SpellsParens) (cs : List Char) :
    (s.pushAll cs).SpellsParens := by
  induction cs generalizing s with
  | nil => exact h
  | cons c cs ih => exact ih (spellsParens_push h c)

theorem spellsParen_of_mem_tokens {s : Lexing} (h : s.SpellsParens) :
    ∀ t ∈ s.tokens, t.SpellsParen := by
  obtain ⟨done, current⟩ := s
  cases current with
  | none => exact h.done
  | some u =>
      intro t ht
      have ht' : t ∈ (done.push u.close).toList := ht
      rw [Array.toList_push] at ht'
      rcases List.mem_append.1 ht' with ht' | ht'
      · exact h.done t ht'
      · rw [List.mem_singleton.1 ht']
        exact OpenToken.spellsParen_close (h.current u rfl)

end Lexing

/-- Where a token of a text stops is where its text leads from its start. -/
theorem stop_of_placed {p : Position} {ts : List Token} (h : Placed p ts) :
    ∀ t ∈ ts, t.stop = t.start.afterAll t.text.toList := by
  induction ts generalizing p with
  | nil =>
      intro t ht
      cases ht
  | cons t ts ih =>
      intro u hu
      obtain ⟨rfl, hstop, hrest⟩ := h
      rcases List.mem_cons.1 hu with rfl | hu
      · exact hstop
      · exact ih hrest u hu

/-- **A paren of a text is told by its place alone.** -/
theorem paren_of_mem_tokenize {text : String} {t : Token} (ht : t ∈ tokenize text) :
    (t.kind = .openParen → t = .opening t.start) ∧ (t.kind = .closeParen → t = .closing t.stop) := by
  have hbegin : Lexing.begin.SpellsParens := ⟨fun _ h => (nomatch h), fun _ h => (nomatch h)⟩
  obtain ⟨hopen, hclose⟩ := Lexing.spellsParen_of_mem_tokens
    (Lexing.spellsParens_pushAll hbegin text.toList) t ht
  have hstop := stop_of_placed (tokenize_placed text) t ht
  obtain ⟨kind, start, stop, spelling⟩ := t
  constructor
  · rintro rfl
    obtain rfl : spelling = "(" := hopen rfl
    obtain rfl : stop = start.after '(' := by simpa using hstop
    rfl
  · rintro rfl
    obtain rfl : spelling = ")" := hclose rfl
    obtain rfl : stop = start.after ')' := by simpa using hstop
    rfl

/-! ## §4. The tokens of a text, written out again. -/

/-- Write the tokens of atoms, and the parens around lists, a close paren only
behind a list that is closed. -/
def tokenPen : Pen Token := ⟨fun t _ => [t], fun p => [.opening p], fun p => [.closing p]⟩

/-- Whether a token is neither trivia nor a prefix operator. -/
def Token.isSolid (t : Token) : Bool := !t.kind.isTrivia && !t.kind.isOperator

theorem Token.isSolid_of_isAtomic {t : Token} (hk : t.kind.isAtomic = true) :
    t.isSolid = true := by
  unfold isSolid
  revert hk
  cases t.kind <;> decide

theorem Token.isSolid_of_isParen {t : Token} (hk : t.kind.isParen = true) :
    t.isSolid = true := by
  unfold isSolid
  revert hk
  cases t.kind <;> decide

/-- **Where no list is read flat, a walk writes all tokens but trivia and prefix
operators.** -/
theorem outputs_tokenPen {n : Nat} (i : Nat) {ts : List Token}
    (hparens : ∀ t ∈ ts, (t.kind = .openParen → t = .opening t.start)
      ∧ (t.kind = .closeParen → t = .closing t.stop))
    (hdeep : ∀ k ≤ ts.length, nestingFrom n (ts.take k) ≤ maxDepth) :
    tokenPen.outputs n i ts = ts.filter Token.isSolid := by
  induction ts generalizing n i with
  | nil => rfl
  | cons t ts ih =>
      have hn : n ≤ maxDepth := hdeep 0 (Nat.zero_le _)
      have hrest := ih (n := t.kind.nest n) (i + 1)
        (fun u hu => hparens u (List.mem_cons_of_mem t hu))
        (fun k hk => hdeep (k + 1) (Nat.succ_le_succ hk))
      obtain ⟨hopen, hclose⟩ := hparens t List.mem_cons_self
      rw [Pen.outputs, hrest]
      rcases t.kind.cases with hk | hk | hk | hk | hk
      · have hsolid : ¬ t.isSolid = true := by simp [Token.isSolid, hk]
        rw [Pen.output_trivia _ hk, List.filter_cons_of_neg hsolid]
        rfl
      · have hsolid : ¬ t.isSolid = true := by simp [Token.isSolid, hk]
        rw [Pen.output_operator _ hk, if_pos hn, List.filter_cons_of_neg hsolid]
        rfl
      · rw [Pen.output_atomic _ hk, List.filter_cons_of_pos (Token.isSolid_of_isAtomic hk)]
        rfl
      · have hparen : t.kind.isParen = true := by rw [hk]; rfl
        have hwritten : tokenPen.opening t.start = [t] := congrArg (fun t => [t]) (hopen hk).symm
        rw [Pen.output_openParen _ hk, if_pos hn, hwritten,
          List.filter_cons_of_pos (Token.isSolid_of_isParen hparen)]
        rfl
      · have hparen : t.kind.isParen = true := by rw [hk]; rfl
        have hwritten : tokenPen.closing t.stop = [t] := congrArg (fun t => [t]) (hclose hk).symm
        -- with a partner it closes a list, without one it is an atom
        rw [Pen.output_closeParen _ hk, if_pos (Nat.le_succ_of_le hn), hwritten,
          List.filter_cons_of_pos (Token.isSolid_of_isParen hparen)]
        split <;> rfl

/-- **Reading loses no token of a text and reads none twice.**  Every token gets its
class.  The atoms of the forms, in order, are tokens of the text with ascending
indices, and they are exactly its leaves.  If no more parens are open anywhere
than are read as a tree, the forms written out again, with a close paren only
behind the lists that have one, are the tokens of the text without trivia and
prefix operators. -/
theorem read_keeps_tokens (text : String) :
    (read (tokenize text)).classes.length = (tokenize text).length
      ∧ ((Sexp.allAtoms (parse text)).map Atom.index).Pairwise (· < ·)
      ∧ (∀ a ∈ Sexp.allAtoms (parse text), (tokenize text)[a.index]? = some a.token)
      ∧ (∀ i, i ∈ (Sexp.allAtoms (parse text)).map Atom.index ↔ IsLeafAt (tokenize text) i)
      ∧ ((∀ k ≤ (tokenize text).length, nesting ((tokenize text).take k) ≤ maxDepth) →
          Sexp.walkAll tokenPen (parse text)
            = (tokenize text).filter Token.isSolid) := by
  obtain ⟨hascending, htokens, hleaves⟩ := atoms_read (tokenize text)
  refine ⟨length_classes_read _, hascending, htokens, hleaves, ?_⟩
  intro hdeep
  have hwalk : Sexp.walkAll tokenPen (parse text) = tokenPen.outputs 0 0 (tokenize text) :=
    walkAll_read tokenPen (tokenize text)
  rw [hwalk]
  exact outputs_tokenPen 0 (fun t ht => paren_of_mem_tokenize ht) hdeep

/-- A stray close paren, a comment, a quote with nothing behind it, and a list that is
not closed. -/
theorem read_keeps_tokens_unbalanced :
    let ts := tokenize "a) ; b\n(c (d ')"
    (∀ k ≤ ts.length, nesting (ts.take k) ≤ maxDepth)
      ∧ Sexp.walkAll tokenPen (parse "a) ; b\n(c (d ')")
          = ts.filter Token.isSolid := by
  intro ts
  have hdeep : ∀ k ≤ ts.length, nesting (ts.take k) ≤ maxDepth := by decide
  exact ⟨hdeep, (read_keeps_tokens "a) ; b\n(c (d ')").2.2.2.2 hdeep⟩

end LispLink.Source
