/-
  LispLink.Proofs.Source.Spans
  ────────────────────────────────
  **SPANS ARE NESTED LIKE LISTS.**

  The places between the tokens of a text go up without a stop, since no token is
  empty: token `k` goes from place `k` to place `k + 1` (`placeOf`).  The rules say
  which tokens an expression is read from, and so where its span lies:

      elements      go up, one behind the other, inside the span of their list
      closed list   stops with the partner of its paren, behind its elements
      other list    stops with the text, and so does every list around it
-/
import LispLink.Proofs.Source.Forms
import LispLink.Proofs.Source.Grammar
import LispLink.Proofs.Source.Lossless

namespace LispLink.Source

/-! ## §1. Places in front of other places. -/

/-- Whether a place is in front of another one. -/
instance : LT Position := ⟨fun p q => p.line < q.line ∨ p.line = q.line ∧ p.col < q.col⟩

namespace Position

variable {p q s : Position}

theorem lt_iff : p < q ↔ p.line < q.line ∨ p.line = q.line ∧ p.col < q.col := Iff.rfl

theorem le_of_lt (h : p < q) : p ≤ q := by
  rw [lt_iff] at h
  rw [le_iff]
  omega

theorem lt_of_lt_of_le (h : p < q) (h' : q ≤ s) : p < s := by
  rw [lt_iff] at h ⊢
  rw [le_iff] at h'
  omega

theorem lt_of_le_of_lt (h : p ≤ q) (h' : q < s) : p < s := by
  rw [lt_iff] at h' ⊢
  rw [le_iff] at h
  omega

theorem lt_afterAll (p : Position) {cs : List Char} (h : cs ≠ []) : p < p.afterAll cs := by
  obtain ⟨c, cs, rfl⟩ := List.exists_cons_of_ne_nil h
  have hafter : p < p.after c := by
    rw [lt_iff, after]
    split
    · exact .inl (Nat.lt_succ_self p.line)
    · exact .inr ⟨rfl, Nat.lt_succ_self p.col⟩
  exact lt_of_lt_of_le hafter (le_afterAll _ _)

end Position

/-! ## §2. The places of tokens. -/

/-- The place in front of token `k`. -/
def placeOf (ts : List Token) (k : Nat) : Position :=
  Position.origin.afterAll (textOf (ts.take k))

section

variable {ts : List Token}

theorem placeOf_add (ts : List Token) (i n : Nat) :
    placeOf ts (i + n) = (placeOf ts i).afterAll (textOf ((ts.drop i).take n)) := by
  rw [placeOf, List.take_add, textOf_append, Position.afterAll_append]
  rfl

theorem placeOf_le {i j : Nat} (h : i ≤ j) : placeOf ts i ≤ placeOf ts j := by
  obtain ⟨n, rfl⟩ := Nat.exists_eq_add_of_le h
  rw [placeOf_add]
  exact Position.le_afterAll _ _

/-- **Behind a token the text has got on.** -/
theorem placeOf_lt (hne : AreNonempty ts) {i j : Nat} (h : i < j) (hi : i < ts.length) :
    placeOf ts i < placeOf ts j := by
  -- between the places is at least the token with index `i`
  obtain ⟨n, rfl⟩ := Nat.exists_eq_add_of_le h
  rw [Nat.succ_eq_add_one, Nat.add_assoc, placeOf_add]
  refine Position.lt_afterAll _ (textOf_ne_nil ?_ ?_)
  · exact fun t ht => hne t (List.mem_of_mem_drop (List.mem_of_mem_take ht))
  · rw [← List.length_pos_iff, List.length_take, List.length_drop]
    omega

/-- Token `k` goes from place `k` to the next one. -/
theorem places_eq (h : Placed .origin ts) {k : Nat} {t : Token} (ht : ts[k]? = some t) :
    t.start = placeOf ts k ∧ t.stop = placeOf ts (k + 1) := by
  obtain ⟨hk, hget⟩ := List.getElem?_eq_some_iff.1 ht
  have hsplit : ts = ts.take k ++ t :: ts.drop (k + 1) := by
    rw [← hget, ← List.drop_eq_getElem_cons hk, List.take_append_drop]
  rw [placeOf, placeOf, List.take_add_one, ht]
  rw [hsplit] at h
  exact places_of_placed h

theorem stopOf_eq (h : Placed .origin ts) : stopOf ts = placeOf ts ts.length := by
  rw [placeOf, List.take_length]
  exact stopFrom_of_placed h

end

/-! ## §3. Spans. -/

/-- What is known of a list apart from its elements; nothing of an atom. -/
def Sexp.outline? : Sexp → Option Outline
  | .atom _ => none
  | .list o _ _ => some o

/-- Whether expressions go up, one behind the other, between two places. -/
structure AreSpanned (p q : Position) (es : List Sexp) : Prop where
  starts : ∀ e ∈ es, p ≤ e.start
  start_lt_stop : ∀ e ∈ es, e.start < e.stop
  stops : ∀ e ∈ es, e.stop ≤ q
  separated : es.Pairwise fun a b => a.stop ≤ b.start

theorem areSpanned_nil (p q : Position) : AreSpanned p q [] :=
  ⟨nofun, nofun, nofun, .nil⟩

/-- They still do with one more expression behind them. -/
theorem AreSpanned.concat {p q s : Position} {es : List Sexp} (h : AreSpanned p q es) (hpq : p ≤ q)
    {e : Sexp} (hstart : q ≤ e.start) (hlt : e.start < e.stop) (hstop : e.stop ≤ s) :
    AreSpanned p s (es ++ [e]) := by
  have hqs : q ≤ s := Position.le_trans hstart (Position.le_trans (Position.le_of_lt hlt) hstop)
  refine ⟨?_, ?_, ?_, ?_⟩
  · intro e' he'
    rcases List.mem_append.1 he' with he' | he'
    · exact h.starts e' he'
    · exact List.mem_singleton.1 he' ▸ Position.le_trans hpq hstart
  · intro e' he'
    rcases List.mem_append.1 he' with he' | he'
    · exact h.start_lt_stop e' he'
    · exact List.mem_singleton.1 he' ▸ hlt
  · intro e' he'
    rcases List.mem_append.1 he' with he' | he'
    · exact Position.le_trans (h.stops e' he') hqs
    · exact List.mem_singleton.1 he' ▸ hstop
  · refine List.pairwise_append.2 ⟨h.separated, List.pairwise_singleton _ _, ?_⟩
    intro a ha b hb
    exact List.mem_singleton.1 hb ▸ Position.le_trans (h.stops a ha) hstart

theorem AreSpanned.mono {p q s : Position} {es : List Sexp} (h : AreSpanned p q es) (hqs : q ≤ s) :
    AreSpanned p s es :=
  ⟨h.starts, h.start_lt_stop, fun e he => Position.le_trans (h.stops e he) hqs, h.separated⟩

section

variable {ts : List Token} {us : List Taint}

theorem TokenAt.lt_length {i : Nat} {x : Token} {u : Taint} (hx : TokenAt ts us i x u) :
    i < ts.length := (List.getElem?_eq_some_iff.1 hx.1).1

variable (hplaced : Placed .origin ts) (hne : AreNonempty ts)
include hplaced

/-- A list stops where the tokens stop that belong to it. -/
theorem Ends.stop_eq {i n q : Nat} {u : Taint} {stop : Position} {closed : Bool}
    (h : Ends ts us i u n q stop closed) : stop = placeOf ts q := by
  cases h with
  | closed hy => exact (places_eq hplaced hy.1).2
  | unclosed => exact stopOf_eq hplaced

include hne

/-- A token and what comes behind it, up to the end of a list, is a span. -/
theorem Ends.start_lt {i n q : Nat} {u v : Taint} {x : Token} {stop : Position} {closed : Bool}
    (h : Ends ts us i u n q stop closed) (hx : TokenAt ts us i x v) (hi : i < n) :
    x.start < stop := by
  rw [(places_eq hplaced hx.1).1, h.stop_eq hplaced]
  exact placeOf_lt hne (Nat.lt_of_lt_of_le hi h.le) hx.lt_length

/-- An atom is spanned by its token. -/
theorem AreSpanned.concat_atom {i j k : Nat} {u v : Taint} {x : Token} {es : List Sexp}
    (h : AreSpanned (placeOf ts i) (placeOf ts j) es) (hij : i ≤ j) (hjk : j ≤ k)
    (hx : TokenAt ts us k x u) :
    AreSpanned (placeOf ts i) (placeOf ts (k + 1)) (es ++ [.atom ⟨x, k, v⟩]) := by
  obtain ⟨hstart, hstop⟩ := places_eq hplaced hx.1
  refine h.concat (placeOf_le hij) ?_ ?_ ?_
  · show placeOf ts j ≤ x.start
    exact hstart ▸ placeOf_le hjk
  · show x.start < x.stop
    rw [hstart, hstop]
    exact placeOf_lt hne (Nat.lt_succ_self k) hx.lt_length
  · show x.stop ≤ _
    exact hstop ▸ Position.le_self _

/-- A list is spanned by its open paren and by what ends it. -/
theorem AreSpanned.concat_list {i j k n q : Nat} {u v : Taint} {x : Token} {stop : Position}
    {closed : Bool} {es inner : List Sexp} {role : Role}
    (h : AreSpanned (placeOf ts i) (placeOf ts j) es) (hij : i ≤ j) (hjk : j ≤ k)
    (hx : TokenAt ts us k x u) (hkn : k < n) (ends : Ends ts us k v n q stop closed) :
    AreSpanned (placeOf ts i) (placeOf ts q)
      (es ++ [.list ⟨x.start, stop, closed, u⟩ role inner]) := by
  refine h.concat (placeOf_le hij) ?_ (ends.start_lt hplaced hne hx hkn) ?_
  · show placeOf ts j ≤ x.start
    exact (places_eq hplaced hx.1).1 ▸ placeOf_le hjk
  · show stop ≤ _
    exact ends.stop_eq hplaced ▸ Position.le_self _

/-- **The expressions of a flat row go up, one behind the other.** -/
theorem FlatRow.areSpanned {u : Taint} {i j : Nat} {es : List Sexp}
    (h : FlatRow ts us u i j es) : AreSpanned (placeOf ts i) (placeOf ts j) es := by
  induction h with
  | nil => exact areSpanned_nil _ _
  | trivia _ _ _ ih | paren _ _ _ ih => exact ih.mono (placeOf_le (Nat.le_succ _))
  | atom before hx _ ih => exact ih.concat_atom hplaced hne before.le (Nat.le_refl _) hx

/-- **So do the expressions of a row.** -/
theorem Row.areSpanned {d i j : Nat} {t : Taint} {es : List Sexp} (h : Row ts us d t i j es) :
    AreSpanned (placeOf ts i) (placeOf ts j) es := by
  induction h with
  | nil => exact areSpanned_nil _ _
  | atom before lead hx _ ih | stray before lead hx _ _ ih =>
      exact ih.concat_atom hplaced hne before.le lead.le hx
  | list before lead _ hx _ inside trail ends ih =>
      -- the end is behind all that is inside, and that behind the paren
      have hlt := Nat.lt_of_succ_le (Nat.le_trans inside.le trail.le)
      exact ih.concat_list hplaced hne before.le lead.le hx hlt ends
  | flat before lead hx _ inside ends ih =>
      have hlt := Nat.lt_of_succ_le inside.le
      exact ih.concat_list hplaced hne before.le lead.le hx hlt ends

end

/-! ## §4. Lists without an end. -/

section

variable {ts : List Token} {us : List Taint}

/-- What is not closed goes up to the end of the text. -/
theorem Ends.of_not_closed {i n q : Nat} {u : Taint} {stop : Position}
    (h : Ends ts us i u n q stop false) : q = ts.length ∧ stop = stopOf ts := by
  cases h with
  | unclosed => exact ⟨rfl, rfl⟩

/-- At the end of the text no list is closed. -/
theorem Ends.of_length_le {i n q : Nat} {u : Taint} {stop : Position} {closed : Bool}
    (h : Ends ts us i u n q stop closed) (hn : ts.length ≤ n) :
    closed = false ∧ q = ts.length ∧ stop = stopOf ts := by
  cases h with
  | closed hy => exact absurd hy.lt_length (Nat.not_lt.2 hn)
  | unclosed => exact ⟨rfl, rfl, rfl⟩

/-- **A list that is not closed is at the end of its row, and the row at the end of
the text.** -/
theorem Row.of_not_closed {d i j : Nat} {t : Taint} {es : List Sexp} (h : Row ts us d t i j es) :
    ∀ e ∈ Sexp.allNodes es, ∀ o ∈ e.outline?, o.closed = false →
      j = ts.length ∧ o.stop = stopOf ts := by
  -- no token is behind such a list
  have hlast : ∀ {j k : Nat} {x : Token} {u : Taint}, TokenAt ts us k x u → j ≤ k →
      j ≠ ts.length := by
    intro j k x u hx hjk hj
    exact Nat.not_lt.2 hjk (hj ▸ hx.lt_length)
  -- on the rules: the list is in the row before, is the last of the row, or is inside that
  induction h with
  | nil => exact fun e he => nomatch he
  | atom _ lead hx _ ih | stray _ lead hx _ _ ih =>
      intro e he o ho hopen
      rcases Sexp.mem_allNodes_concat.1 he with he | he
      · exact absurd (ih e he o ho hopen).1 (hlast hx lead.le)
      · rw [List.mem_singleton.1 he] at ho
        cases ho
  | list _ lead _ hx _ _ trail ends ih ihInside =>
      intro e he o ho hopen
      rcases Sexp.mem_allNodes_concat.1 he with he | he
      · exact absurd (ih e he o ho hopen).1 (hlast hx lead.le)
      · rcases Sexp.mem_nodes_list.1 he with rfl | he
        · cases ho
          cases hopen
          exact ends.of_not_closed
        · obtain ⟨hm, hstop⟩ := ihInside e he o ho hopen
          exact ⟨(ends.of_length_le (hm ▸ trail.le)).2.1, hstop⟩
  | flat _ lead hx _ inside ends ih =>
      intro e he o ho hopen
      rcases Sexp.mem_allNodes_concat.1 he with he | he
      · exact absurd (ih e he o ho hopen).1 (hlast hx lead.le)
      · rcases Sexp.mem_nodes_list.1 he with rfl | he
        · cases ho
          cases hopen
          exact ends.of_not_closed
        · obtain ⟨a, rfl⟩ := inside.eq_atom e he
          cases ho

end

/-! ## §5. The spans of a text. -/

/-- Where a list with these elements lies in a text with these tokens. -/
structure IsSpanned (ts : List Token) (o : Outline) (es : List Sexp) : Prop where
  start_lt_stop : o.start < o.stop
  starts : ∀ e ∈ es, o.start < e.start
  stops : ∀ e ∈ es, e.stop ≤ o.stop
  stops_before : o.closed = true → ∀ e ∈ es, e.stop < o.stop
  separated : es.Pairwise fun a b => a.stop ≤ b.start
  /-- A closed list goes from its open paren to the partner of that paren. -/
  closed : o.closed = true → ∃ i j x y, ArePartners ts i j ∧ ts[i]? = some x ∧ x.start = o.start
    ∧ ts[j]? = some y ∧ y.stop = o.stop
  /-- Any other list goes from a paren without a partner to the end of the text. -/
  unclosed : o.closed = false → (∃ i x, StaysOpen ts i ∧ ts[i]? = some x ∧ x.start = o.start)
    ∧ ts.getLast?.map Token.stop = some o.stop
  /-- Every list around one that is not closed is not closed, and stops there too. -/
  enclosing : ∀ e ∈ Sexp.allNodes es, ∀ o' ∈ e.outline?, o'.closed = false →
    o.closed = false ∧ o.stop = o'.stop

section

variable {ts : List Token} {us : List Taint}

/-- **What rules say of spans**, for a list the inside of which goes from the paren at
`k` up to `m`. -/
theorem isSpanned_of_ends (hplaced : Placed .origin ts) (hne : AreNonempty ts) {k m n q : Nat}
    {u : Taint} {x : Token} {stop : Position} {closed : Bool} {es : List Sexp}
    (hx : TokenAt ts us k x u) (hes : AreSpanned (placeOf ts (k + 1)) (placeOf ts m) es)
    (hkm : k < m) (hmn : m ≤ n) (ends : Ends ts us k u n q stop closed)
    (hopen : ∀ e ∈ Sexp.allNodes es, ∀ o ∈ e.outline?, o.closed = false →
      m = ts.length ∧ o.stop = stopOf ts) : IsSpanned ts ⟨x.start, stop, closed, u⟩ es := by
  obtain ⟨hstart, _⟩ := places_eq hplaced hx.1
  have hstop : stop = placeOf ts q := ends.stop_eq hplaced
  constructor
  case start_lt_stop => exact ends.start_lt hplaced hne hx (Nat.lt_of_lt_of_le hkm hmn)
  case starts =>
    intro e he
    show x.start < e.start
    rw [hstart]
    exact Position.lt_of_lt_of_le (placeOf_lt hne (Nat.lt_succ_self k) hx.lt_length)
      (hes.starts e he)
  case stops =>
    intro e he
    show e.stop ≤ stop
    rw [hstop]
    exact Position.le_trans (hes.stops e he) (placeOf_le (Nat.le_trans hmn ends.le))
  case stops_before =>
    rintro rfl e he
    show e.stop < stop
    rw [hstop]
    cases ends with
    | closed hy =>
        exact Position.lt_of_le_of_lt (Position.le_trans (hes.stops e he) (placeOf_le hmn))
          (placeOf_lt hne (Nat.lt_succ_self n) hy.lt_length)
  case separated => exact hes.separated
  case closed =>
    rintro rfl
    cases ends with
    | closed hy h => exact ⟨k, n, x, _, h, hx.1, rfl, hy.1, rfl⟩
  case unclosed =>
    rintro rfl
    cases ends with
    | unclosed _ h =>
        refine ⟨⟨k, x, h, hx.1, rfl⟩, ?_⟩
        have hts : ts ≠ [] := List.ne_nil_of_length_pos (Nat.zero_lt_of_lt h.lt_length)
        rw [stopOf, List.getLast?_eq_some_getLast hts]
        rfl
  case enclosing =>
    intro e he o ho hfalse
    obtain ⟨hm, hstop⟩ := hopen e he o ho hfalse
    obtain ⟨hclosed, _, hends⟩ := ends.of_length_le (hm ▸ hmn)
    exact ⟨hclosed, hends.trans hstop.symm⟩

/-- **Every list that was read by the rules lies where it should.** -/
theorem IsRead.isSpanned (hplaced : Placed .origin ts) (hne : AreNonempty ts) {o : Outline}
    {role : Role} {es : List Sexp} (h : IsRead ts us o role es) : IsSpanned ts o es := by
  cases h with
  | tree hx _ inside trail ends =>
      exact isSpanned_of_ends hplaced hne hx (inside.areSpanned hplaced hne) inside.le trail.le ends
        inside.of_not_closed
  | flat hx _ inside ends =>
      refine isSpanned_of_ends hplaced hne hx (inside.areSpanned hplaced hne) inside.le
        (Nat.le_refl _) ends ?_
      intro e he o ho
      obtain ⟨a, rfl⟩ := inside.eq_atom e he
      cases ho

end

/-- **The spans of a text are nested like its lists.**  The forms go up, one behind the
other; every list, closed or not, starts in front of its elements and does not
stop before them; its elements go up as well; a closed list stops with the partner
of its paren, and one that is not closed with the text, like every list around
it. -/
theorem parse_spans (text : String) :
    ((parse text).Pairwise fun a b => a.stop ≤ b.start)
      ∧ ∀ e ∈ Sexp.allNodes (parse text), ∀ o ∈ e.outline?,
        IsSpanned (tokenize text) o e.elements := by
  have hplaced := tokenize_placed text
  have hne : AreNonempty (tokenize text) := (Lexing.textOf_pushAll text.toList).2
  obtain ⟨j, u, row, _⟩ := row_read (tokenize text)
  refine ⟨(row.areSpanned hplaced hne).separated, ?_⟩
  intro e he o ho
  cases e with
  | atom a => cases ho
  | list o' role es =>
      cases ho
      exact (row.isRead o role es he).isSpanned hplaced hne

/-- A closed list inside one that is not, with white space behind both. -/
theorem parse_spans_unclosed :
    ∃ e o, e ∈ Sexp.allNodes (parse "a (b (c)\n ") ∧ e.outline? = some o ∧ o.closed = false
      ∧ o.stop = ⟨1, 1⟩ ∧ IsSpanned (tokenize "a (b (c)\n ") o e.elements := by
  obtain ⟨e, he, ho⟩ : ∃ e, (Sexp.allNodes (parse "a (b (c)\n "))[1]? = some e
      ∧ e.outline? = some ⟨⟨0, 2⟩, ⟨1, 1⟩, false, .none⟩ :=
    Option.bind_eq_some_iff.1 (by decide +kernel)
  have hmem := List.mem_of_getElem? he
  exact ⟨e, _, hmem, ho, rfl, rfl, (parse_spans _).2 e hmem _ ho⟩

end LispLink.Source
