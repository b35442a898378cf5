/-
  LispLink.Proofs.Source.Matching
  ────────────────────────────────
  **WHICH PARENS HAVE NO PARTNER.**

  Both kinds of paren without a partner are told by the nesting alone:

      a close paren is stray        nothing is open before it
      an open paren stays open      behind it the nesting never gets back to
                                    what it was before it

  The parens on the stack of the pass that matches parens are those that stay
  open, the innermost first; their levels count down to zero.  So the last of
  them is the first of the text.
-/
import Mathlib.Data.List.Induction
import LispLink.Proofs.Source.Nesting
import LispLink.Source.Paint

namespace LispLink.Source

/-! ## §1. Parens that stay open. -/

/-- Whether the token with this index is an open paren that no token behind it
closes: everywhere behind it more parens are open than before it. -/
def StaysOpen (ts : List Token) (i : Nat) : Prop :=
  (∃ t, ts[i]? = some t ∧ t.kind = .openParen)
    ∧ ∀ j, i < j → j ≤ ts.length → nesting (ts.take i) < nesting (ts.take j)

/-- Whether the token with this index is the first open paren that stays open. -/
def IsUnclosed (ts : List Token) (i : Nat) : Prop :=
  StaysOpen ts i ∧ ∀ j < i, ¬ StaysOpen ts j

instance (ts : List Token) (i : Nat) : Decidable (StaysOpen ts i) :=
  decidable_of_iff
    ((∃ t ∈ ts[i]?, t.kind = .openParen)
      ∧ ∀ j ≤ ts.length, i < j → nesting (ts.take i) < nesting (ts.take j))
    ⟨fun h => ⟨h.1, fun j hij hj => h.2 j hj hij⟩, fun h => ⟨h.1, fun j hj hij => h.2 j hij hj⟩⟩

instance (ts : List Token) (i : Nat) : Decidable (IsUnclosed ts i) :=
  inferInstanceAs (Decidable (StaysOpen ts i ∧ ∀ j < i, ¬ StaysOpen ts j))

section

variable {ts : List Token} {i : Nat}

theorem StaysOpen.lt_length (h : StaysOpen ts i) : i < ts.length := by
  obtain ⟨⟨t, ht, _⟩, _⟩ := h
  exact (List.getElem?_eq_some_iff.1 ht).1

theorem StaysOpen.nesting_lt (h : StaysOpen ts i) : nesting (ts.take i) < nesting ts := by
  have hlast := h.2 ts.length h.lt_length (Nat.le_refl _)
  rw [List.take_length] at hlast
  exact hlast

/-- **One more token**: it stays open if it is an open paren, and the others stay
open that are nested less than the text is with it. -/
theorem staysOpen_concat (ts : List Token) (t : Token) (i : Nat) :
    StaysOpen (ts ++ [t]) i ↔
      (i = ts.length ∧ t.kind = .openParen)
        ∨ (StaysOpen ts i ∧ nesting (ts.take i) < nesting (ts ++ [t])) := by
  constructor
  · intro h
    have hnest := h.nesting_lt
    obtain ⟨⟨u, hu, hk⟩, hall⟩ := h
    rcases getElem?_concat_cases hu with ⟨hi, hu⟩ | ⟨rfl, rfl⟩
    · right
      rw [nesting_take_concat t (Nat.le_of_lt hi)] at hnest
      refine ⟨⟨⟨u, hu, hk⟩, ?_⟩, hnest⟩
      intro j hij hj
      have hj' := hall j hij (by rw [List.length_append]; omega)
      rw [nesting_take_concat t (Nat.le_of_lt hi), nesting_take_concat t hj] at hj'
      exact hj'
    · exact .inl ⟨rfl, hk⟩
  · rintro (⟨rfl, hk⟩ | ⟨h, hnest⟩)
    · refine ⟨⟨t, List.getElem?_concat_length, hk⟩, ?_⟩
      · intro j hij hj
        rw [List.length_append, List.length_singleton] at hj
        have hj' : j = (ts ++ [t]).length := by
          rw [List.length_append, List.length_singleton]
          omega
        rw [nesting_take_concat t (Nat.le_refl _), List.take_length, hj', List.take_length,
          nesting_concat, hk]
        exact Nat.lt_succ_self _
    · have hi := h.lt_length
      obtain ⟨⟨u, hu, hk⟩, hall⟩ := h
      refine ⟨⟨u, ?_, hk⟩, ?_⟩
      · rw [List.getElem?_append_left hi]
        exact hu
      · intro j hij hj
        rw [nesting_take_concat t (Nat.le_of_lt hi)]
        rw [List.length_append, List.length_singleton] at hj
        by_cases hj' : j ≤ ts.length
        · rw [nesting_take_concat t hj']
          exact hall j hij hj'
        · have hend : (ts ++ [t]).take j = ts ++ [t] := by
            apply List.take_of_length_le
            rw [List.length_append, List.length_singleton]
            omega
          rw [hend]
          exact hnest

/-- **At most one paren is unclosed.** -/
theorem IsUnclosed.unique {j : Nat} (hi : IsUnclosed ts i) (hj : IsUnclosed ts j) : i = j := by
  rcases Nat.lt_trichotomy i j with hlt | heq | hlt
  · exact absurd hi.1 (hj.2 i hlt)
  · exact heq
  · exact absurd hj.1 (hi.2 j hlt)

end

/-! ## §2. The pass. -/

namespace Matching

/-- Nothing passed yet. -/
def begin : Matching := ⟨#[], []⟩

/-- Pass tokens. -/
def pushAll (m : Matching) (ts : List Token) : Matching := ts.foldl (fun m t => m.push t.kind) m

theorem pushAll_concat (m : Matching) (ts : List Token) (t : Token) :
    m.pushAll (ts ++ [t]) = (m.pushAll ts).push t.kind := by
  simp [pushAll]

variable {m : Matching}

theorem push_openParen : m.push .openParen = ⟨m.kinds.push .openParen, m.kinds.size :: m.opened⟩ :=
  rfl

theorem push_closeParen_stray (ho : m.opened = []) :
    m.push .closeParen = ⟨m.kinds.push .strayParen, []⟩ := by
  obtain ⟨kinds, opened⟩ := m
  obtain rfl : opened = [] := ho
  rfl

theorem push_closeParen {i : Nat} {rest : List Nat} (ho : m.opened = i :: rest) :
    m.push .closeParen = ⟨m.kinds.push .closeParen, rest⟩ := by
  obtain ⟨kinds, opened⟩ := m
  obtain rfl : opened = i :: rest := ho
  rfl

theorem push_of_not_isParen {k : Kind} (hk : k.isParen = false) :
    m.push k = ⟨m.kinds.push k, m.opened⟩ := by
  obtain ⟨kinds, opened⟩ := m
  cases k <;> first | rfl | cases hk

/-- What a kind becomes if `n` parens are open before the token. -/
def flag (n : Nat) (k : Kind) : Kind := if k = .closeParen ∧ n = 0 then .strayParen else k

/-- What the pass has found out about the tokens that it passed: the kinds with all
stray parens flagged, and the parens that stay open, innermost first. -/
structure Matches (m : Matching) (ts : List Token) : Prop where
  size : m.kinds.size = ts.length
  kinds : ∀ i t, ts[i]? = some t → m.kinds[i]? = some (flag (nesting (ts.take i)) t.kind)
  opened : ∀ i, i ∈ m.opened ↔ StaysOpen ts i
  levels : m.opened.map (fun i => nesting (ts.take i)) = (List.range (nesting ts)).reverse

theorem matches_begin : begin.Matches [] := by
  refine ⟨rfl, fun i t h => (nomatch h), fun i => ⟨fun h => (nomatch h), ?_⟩, rfl⟩
  rintro ⟨⟨t, ht, _⟩, _⟩
  cases ht

section

variable {ts : List Token}

/-- The kind of one more token. -/
theorem kinds_concat (h : m.Matches ts) (t : Token) {k : Kind} (hk : flag (nesting ts) t.kind = k) :
    (m.kinds.push k).size = (ts ++ [t]).length
      ∧ ∀ i u, (ts ++ [t])[i]? = some u →
        (m.kinds.push k)[i]? = some (flag (nesting ((ts ++ [t]).take i)) u.kind) := by
  refine ⟨?_, ?_⟩
  · rw [Array.size_push, h.size, List.length_append, List.length_singleton]
  · intro i u hu
    rw [Array.getElem?_push, h.size]
    rcases getElem?_concat_cases hu with ⟨hi, hu⟩ | ⟨rfl, rfl⟩
    · rw [nesting_take_concat t (Nat.le_of_lt hi), if_neg (Nat.ne_of_lt hi)]
      exact h.kinds i u hu
    · rw [nesting_take_concat u (Nat.le_refl _), if_pos rfl, List.take_length, hk]

/-- The levels of open parens stay what they are when tokens come behind. -/
theorem levels_concat (h : m.Matches ts) (t : Token) {is : List Nat}
    (his : ∀ i ∈ is, i ∈ m.opened) :
    is.map (fun i => nesting ((ts ++ [t]).take i)) = is.map fun i => nesting (ts.take i) := by
  apply List.map_congr_left
  intro i hi
  have hlt := ((h.opened i).1 (his i hi)).lt_length
  exact nesting_take_concat t (Nat.le_of_lt hlt)

/-- As many parens are open for the pass as are open behind the tokens. -/
theorem length_opened (h : m.Matches ts) : m.opened.length = nesting ts := by
  have hlevels := congrArg List.length h.levels
  rw [List.length_map, List.length_reverse, List.length_range] at hlevels
  exact hlevels

/-- An open paren stays open, at the level of the text before it. -/
theorem matches_push_openParen (h : m.Matches ts) {t : Token} (ht : t.kind = .openParen) :
    (m.push t.kind).Matches (ts ++ [t]) := by
  have hnest : nesting (ts ++ [t]) = nesting ts + 1 := by
    rw [nesting_concat, ht]
    rfl
  have hk : flag (nesting ts) t.kind = .openParen := by
    rw [ht]
    rfl
  obtain ⟨hsize, hkinds⟩ := kinds_concat h t hk
  rw [ht, push_openParen]
  refine ⟨hsize, hkinds, ?_, ?_⟩
  · intro i
    rw [List.mem_cons, h.opened, h.size, staysOpen_concat, hnest]
    constructor
    · rintro (rfl | hi)
      · exact .inl ⟨rfl, ht⟩
      · exact .inr ⟨hi, Nat.lt_succ_of_lt hi.nesting_lt⟩
    · rintro (⟨hi, _⟩ | ⟨hi, _⟩)
      · exact .inl hi
      · exact .inr hi
  · rw [List.map_cons, levels_concat h t (fun _ hi => hi), h.levels, h.size,
      nesting_take_concat t (Nat.le_refl _), List.take_length, hnest, List.range_succ,
      List.reverse_append]
    rfl

/-- Behind a close paren only those parens stay open that were open at a lower
level. -/
theorem staysOpen_concat_closeParen {t : Token} (ht : t.kind = .closeParen) (i : Nat) :
    StaysOpen (ts ++ [t]) i ↔ StaysOpen ts i ∧ nesting (ts.take i) < nesting ts - 1 := by
  have hnest : nesting (ts ++ [t]) = nesting ts - 1 := by
    rw [nesting_concat, ht]
    rfl
  rw [staysOpen_concat, hnest]
  constructor
  · rintro (⟨_, hopen⟩ | hi)
    · rw [ht] at hopen
      cases hopen
    · exact hi
  · exact .inr

/-- With nothing open, a close paren is stray. -/
theorem matches_push_stray (h : m.Matches ts) {t : Token} (ht : t.kind = .closeParen)
    (ho : m.opened = []) : (m.push t.kind).Matches (ts ++ [t]) := by
  have hzero : nesting ts = 0 := by
    rw [← length_opened h, ho]
    rfl
  have hk : flag (nesting ts) t.kind = .strayParen := by
    rw [hzero, ht]
    rfl
  obtain ⟨hsize, hkinds⟩ := kinds_concat h t hk
  rw [ht, push_closeParen_stray ho]
  refine ⟨hsize, hkinds, ?_, ?_⟩
  · intro i
    rw [staysOpen_concat_closeParen ht, hzero]
    simp
  · rw [nesting_concat, ht, hzero]
    rfl

/-- A close paren closes the innermost open one, which is the only one at its
level. -/
theorem matches_push_closeParen (h : m.Matches ts) {t : Token} (ht : t.kind = .closeParen)
    {i₀ : Nat} {rest : List Nat} (ho : m.opened = i₀ :: rest) :
    (m.push t.kind).Matches (ts ++ [t]) := by
  have hn : nesting ts = rest.length + 1 := by
    rw [← length_opened h, ho]
    rfl
  have hlevels := h.levels
  rw [ho, List.map_cons, hn, List.range_succ, List.reverse_append] at hlevels
  obtain ⟨hlevel, hrest⟩ := List.cons.inj hlevels
  have hbelow : ∀ i ∈ rest, nesting (ts.take i) < rest.length := by
    intro i hi
    have hmem : nesting (ts.take i) ∈ rest.map fun i => nesting (ts.take i) :=
      List.mem_map_of_mem hi
    rw [hrest] at hmem
    simpa using hmem
  have hk : flag (nesting ts) t.kind = .closeParen := by
    rw [hn, ht]
    rfl
  obtain ⟨hsize, hkinds⟩ := kinds_concat h t hk
  rw [ht, push_closeParen ho]
  refine ⟨hsize, hkinds, ?_, ?_⟩
  · intro i
    rw [staysOpen_concat_closeParen ht, ← h.opened, ho, hn, List.mem_cons]
    constructor
    · intro hi
      exact ⟨.inr hi, hbelow i hi⟩
    · rintro ⟨rfl | hi, hlt⟩
      · rw [hlevel] at hlt
        exact absurd hlt (Nat.lt_irrefl _)
      · exact hi
  · have hsub : ∀ i ∈ rest, i ∈ m.opened := by
      intro i hi
      rw [ho]
      exact List.mem_cons_of_mem i₀ hi
    rw [levels_concat h t hsub, hrest, nesting_concat, ht, hn]
    rfl

/-- Any other token leaves the parens as they are. -/
theorem matches_push_other (h : m.Matches ts) {t : Token} (ht : t.kind.isParen = false) :
    (m.push t.kind).Matches (ts ++ [t]) := by
  have hopen : t.kind ≠ .openParen := by
    intro hk
    rw [hk] at ht
    cases ht
  have hclose : t.kind ≠ .closeParen := by
    intro hk
    rw [hk] at ht
    cases ht
  have hnest : nesting (ts ++ [t]) = nesting ts := by
    rw [nesting_concat, Kind.nest_of_not_isParen ht]
  have hk : flag (nesting ts) t.kind = t.kind := if_neg fun hk => hclose hk.1
  obtain ⟨hsize, hkinds⟩ := kinds_concat h t hk
  rw [push_of_not_isParen ht]
  refine ⟨hsize, hkinds, ?_, ?_⟩
  · intro i
    rw [h.opened, staysOpen_concat, hnest]
    constructor
    · exact fun hi => .inr ⟨hi, hi.nesting_lt⟩
    · rintro (⟨_, hk⟩ | ⟨hi, _⟩)
      · exact absurd hk hopen
      · exact hi
  · rw [levels_concat h t (fun _ hi => hi), h.levels, hnest]

/-- **What the pass has found out stays true with one more token.** -/
theorem matches_push (h : m.Matches ts) (t : Token) : (m.push t.kind).Matches (ts ++ [t]) := by
  by_cases hparen : t.kind.isParen = true
  · rcases Kind.isParen_iff.1 hparen with hopen | hclose
    · exact matches_push_openParen h hopen
    · cases ho : m.opened with
      | nil => exact matches_push_stray h hclose ho
      | cons i rest => exact matches_push_closeParen h hclose ho
  · exact matches_push_other h (Bool.eq_false_iff.2 hparen)

theorem matches_pushAll (ts : List Token) : (begin.pushAll ts).Matches ts := by
  induction ts using List.reverseRecOn with
  | nil => exact matches_begin
  | append_singleton ts t ih =>
      rw [pushAll_concat]
      exact matches_push ih t

/-! ## §3. The end of the text. -/

/-- **The outermost paren that is open at the end is the first that stays open.** -/
theorem getLast?_opened_iff (h : m.Matches ts) (i : Nat) :
    m.opened.getLast? = some i ↔ IsUnclosed ts i := by
  -- its level is zero, and whatever stays open before it would be at a lower level
  have hforward : ∀ i, m.opened.getLast? = some i → IsUnclosed ts i := by
    intro i hi
    have hstay := (h.opened i).1 (List.mem_of_getLast? hi)
    have hlevel : nesting (ts.take i) = 0 := by
      have hlast := congrArg List.getLast? h.levels
      rw [List.getLast?_map, hi, List.getLast?_reverse] at hlast
      cases hn : nesting ts with
      | zero =>
          rw [hn] at hlast
          cases hlast
      | succ n =>
          rw [hn, List.range_succ_eq_map] at hlast
          simpa using hlast
    refine ⟨hstay, ?_⟩
    intro j hj hstay'
    have hlt := hstay'.2 i hj (Nat.le_of_lt hstay.lt_length)
    rw [hlevel] at hlt
    exact Nat.not_lt_zero _ hlt
  refine ⟨hforward i, ?_⟩
  intro hi
  have hmem : i ∈ m.opened := (h.opened i).2 hi.1
  cases hlast : m.opened.getLast? with
  | none =>
      rw [List.getLast?_eq_none_iff] at hlast
      rw [hlast] at hmem
      cases hmem
  | some l => rw [hi.unique (hforward l hlast)]

end

end Matching

/-- Whether kinds flag the parens of a token list as they should, and leave the
other parens as they are. -/
structure FlagsParens (ts : List Token) (kinds : List Kind) : Prop where
  /-- A close paren is flagged if nothing is open before it. -/
  close : ∀ i t, ts[i]? = some t → t.kind = .closeParen →
    kinds[i]? = some (if nesting (ts.take i) = 0 then .strayParen else .closeParen)
  /-- An open paren is flagged if it is the first that stays open. -/
  unclosed : ∀ i t, ts[i]? = some t → t.kind = .openParen → IsUnclosed ts i →
    kinds[i]? = some .unclosedParen
  closed : ∀ i t, ts[i]? = some t → t.kind = .openParen → ¬ IsUnclosed ts i →
    kinds[i]? = some .openParen

theorem balance_eq (ts : List Token) : balance ts = (Matching.begin.pushAll ts).finish.toList := by
  unfold balance Matching.pushAll
  rw [List.foldl_map]
  rfl

theorem size_finish (m : Matching) : m.finish.size = m.kinds.size := by
  unfold Matching.finish
  split
  · rfl
  · exact Array.size_setIfInBounds

theorem length_balance (ts : List Token) : (balance ts).length = ts.length := by
  rw [balance_eq, Array.length_toList, size_finish]
  exact (Matching.matches_pushAll ts).size

/-- **Matching parens flags exactly those without a partner.** -/
theorem flagsParens_balance (ts : List Token) : FlagsParens ts (balance ts) := by
  have h := Matching.matches_pushAll ts
  -- a token that is not the unclosed paren has the kind that the pass gave it
  have hkeeps : ∀ i t, ts[i]? = some t → ¬ IsUnclosed ts i →
      (balance ts)[i]? = some (Matching.flag (nesting (ts.take i)) t.kind) := by
    intro i t ht hi
    rw [balance_eq, Array.getElem?_toList, Matching.finish]
    split
    · exact h.kinds i t ht
    · next l hl =>
        have hne : l ≠ i := by
          rintro rfl
          exact hi ((Matching.getLast?_opened_iff h l).1 hl)
        rw [Array.getElem?_setIfInBounds_ne hne]
        exact h.kinds i t ht
  refine ⟨?_, ?_, ?_⟩
  · intro i t ht hk
    have hi : ¬ IsUnclosed ts i := by
      rintro ⟨⟨⟨u, hu, hopen⟩, _⟩, _⟩
      rw [ht] at hu
      cases hu
      rw [hk] at hopen
      cases hopen
    rw [hkeeps i t ht hi, Matching.flag, hk]
    simp
  · intro i t ht hk hi
    have hlt : i < ts.length := hi.1.lt_length
    rw [balance_eq, Array.getElem?_toList, Matching.finish,
      (Matching.getLast?_opened_iff h i).2 hi]
    exact Array.getElem?_setIfInBounds_self_of_lt (by rw [h.size]; exact hlt)
  · intro i t ht hk hi
    rw [hkeeps i t ht hi, Matching.flag, hk]
    rfl

end LispLink.Source
