/-
  LispLink.Proofs.Source.Depth
  ────────────────────────────────
  **HOW HIGH EXPRESSIONS BECOME.**

  The expressions of a text are as high as its parens are nested, up to the cap:

      heightAll (parse text)  =  min (peak (tokenize text)) (maxDepth + 1)

  where `peak` is the greatest number of parens that are open at once.  Heights
  count what bindings keep as well, but that is never higher than the elements
  it is taken from.  Along a row the heights so far and the nesting so far agree
  at every place (`IsAsHigh`), which is what the induction over the rules carries.

  A list is read flat exactly if `maxDepth` lists enclose it.  It then goes up to
  the partner of its open paren, or to the end of the text if there is none, and
  its elements are the tokens in between that are no trivia and no parens.
-/
import LispLink.Proofs.Source.Grammar

namespace LispLink.Source

/-! ## §1. Greatest numbers. -/

/-- The greatest of some numbers, and zero if there are none. -/
def greatest (ns : List Nat) : Nat := ns.foldr max 0

theorem greatest_le_iff {ns : List Nat} {m : Nat} : greatest ns ≤ m ↔ ∀ n ∈ ns, n ≤ m := by
  induction ns with
  | nil => simp [greatest]
  | cons n ns ih =>
      show max n (greatest ns) ≤ m ↔ _
      rw [Nat.max_le, ih, List.forall_mem_cons]

theorem le_greatest {ns : List Nat} {n : Nat} (h : n ∈ ns) : n ≤ greatest ns :=
  greatest_le_iff.1 (Nat.le_refl _) n h

theorem greatest_append (ns ms : List Nat) :
    greatest (ns ++ ms) = max (greatest ns) (greatest ms) := by
  induction ns with
  | nil => simp [greatest]
  | cons n ns ih =>
      show max n (greatest (ns ++ ms)) = max (max n (greatest ns)) (greatest ms)
      omega

/-- The greatest number of parens that are open at once. -/
def peak (ts : List Token) : Nat :=
  greatest ((List.range (ts.length + 1)).map fun k => nesting (ts.take k))

theorem peak_le_iff {ts : List Token} {m : Nat} :
    peak ts ≤ m ↔ ∀ k ≤ ts.length, nesting (ts.take k) ≤ m := by
  unfold peak
  rw [greatest_le_iff]
  constructor
  · intro h k hk
    exact h _ (List.mem_map_of_mem (List.mem_range.2 (Nat.lt_succ_of_le hk)))
  · intro h n hn
    obtain ⟨k, hk, rfl⟩ := List.mem_map.1 hn
    exact h k (Nat.le_of_lt_succ (List.mem_range.1 hk))

theorem le_peak {ts : List Token} {k : Nat} (h : k ≤ ts.length) :
    nesting (ts.take k) ≤ peak ts := peak_le_iff.1 (Nat.le_refl _) k h

/-! ## §2. Heights. -/

namespace Sexp

/-- What an expression holds: its elements, and the values that its bindings keep. -/
def held (e : Sexp) : List Sexp := e.elements ++ e.bindings.filterMap Binding.value

theorem sizeOf_lt_of_mem_elements {x e : Sexp} (h : x ∈ e.elements) : sizeOf x < sizeOf e := by
  cases e with
  | atom a => cases h
  | list o role es =>
      have hlt := List.sizeOf_lt_of_mem (show x ∈ es from h)
      simp only [list.sizeOf_spec]
      omega

/-- What a binding keeps is an element of an entry of the binding list. -/
theorem mem_elements_of_binding {x e : Sexp} (h : x ∈ e.bindings.filterMap Binding.value) :
    ∃ entries ∈ e.elements, ∃ entry ∈ entries.elements, x ∈ entry.elements := by
  unfold bindings at h
  split at h
  · rename_i o a entries rest
    obtain ⟨b, hb, hvalue⟩ := List.mem_filterMap.1 h
    obtain ⟨entry, hentry, hbinding⟩ := List.mem_filterMap.1 hb
    refine ⟨entries, List.mem_cons_of_mem _ List.mem_cons_self, entry, hentry, ?_⟩
    cases entry with
    | atom a =>
        cases hbinding
        cases hvalue
    | list o' role' es =>
        obtain ⟨a, _, rfl⟩ := Option.map_eq_some_iff.1 hbinding
        exact List.mem_of_getElem? hvalue
  · cases h

theorem sizeOf_lt_of_mem_held {x e : Sexp} (h : x ∈ e.held) : sizeOf x < sizeOf e := by
  rcases List.mem_append.1 h with h | h
  · exact sizeOf_lt_of_mem_elements h
  · obtain ⟨entries, he, entry, he', hx⟩ := mem_elements_of_binding h
    have h1 := sizeOf_lt_of_mem_elements he
    have h2 := sizeOf_lt_of_mem_elements he'
    have h3 := sizeOf_lt_of_mem_elements hx
    omega

/-- How many lists are nested in an expression, itself included: an atom is no list,
and a list is one more than whatever it holds. -/
def height : Sexp → Nat
  | atom _ => 0
  | list o role es => greatest ((list o role es).held.attach.map fun x => x.1.height) + 1
decreasing_by exact sizeOf_lt_of_mem_held x.2

/-- How many lists are nested in some expressions. -/
def heightAll (es : List Sexp) : Nat := greatest (es.map height)

@[simp] theorem height_atom (a : Atom) : (atom a).height = 0 := by
  unfold height
  rfl

theorem heightAll_append (es es' : List Sexp) :
    heightAll (es ++ es') = max (heightAll es) (heightAll es') := by
  unfold heightAll
  rw [List.map_append, greatest_append]

@[simp] theorem heightAll_singleton (e : Sexp) : heightAll [e] = e.height := Nat.max_zero _

theorem height_le_heightAll {e : Sexp} {es : List Sexp} (h : e ∈ es) :
    e.height ≤ heightAll es := le_greatest (List.mem_map_of_mem h)

theorem height_list_held (o : Outline) (role : Role) (es : List Sexp) :
    (list o role es).height = heightAll (list o role es).held + 1 := by
  rw [height, heightAll, List.attach_map_val]

theorem height_lt_of_mem_held {x e : Sexp} (h : x ∈ e.held) : x.height < e.height := by
  cases e with
  | atom a => cases h
  | list o role es =>
      rw [height_list_held]
      exact Nat.lt_succ_of_le (height_le_heightAll h)

/-- **Bindings make nothing higher**: what they keep stands further inside already. -/
theorem height_list (o : Outline) (role : Role) (es : List Sexp) :
    (list o role es).height = heightAll es + 1 := by
  have hbindings : heightAll ((list o role es).bindings.filterMap Binding.value)
      ≤ heightAll es := by
    refine greatest_le_iff.2 ?_
    intro n hn
    obtain ⟨x, hx, rfl⟩ := List.mem_map.1 hn
    obtain ⟨entries, he, entry, he', hx⟩ := mem_elements_of_binding hx
    have h1 := height_lt_of_mem_held (List.mem_append_left _ hx)
    have h2 := height_lt_of_mem_held (List.mem_append_left _ he')
    have h3 := height_le_heightAll he
    show x.height ≤ heightAll (list o role es).elements
    omega
  rw [height_list_held]
  show heightAll (es ++ _) + 1 = _
  rw [heightAll_append, Nat.max_eq_left hbindings]

/-- Atoms alone are no higher than nothing. -/
theorem heightAll_eq_zero {es : List Sexp} (h : ∀ x ∈ es, ∃ a, x = atom a) :
    heightAll es = 0 := by
  refine Nat.le_zero.1 (greatest_le_iff.2 ?_)
  intro n hn
  obtain ⟨x, hx, rfl⟩ := List.mem_map.1 hn
  obtain ⟨a, rfl⟩ := h x hx
  exact Nat.le_of_eq (height_atom a)

/-- The expressions that stand inside exactly `d` lists. -/
def layer : Nat → List Sexp → List Sexp
  | 0, es => es
  | d + 1, es => layer d (es.flatMap elements)

theorem layer_append (d : Nat) (es es' : List Sexp) :
    layer d (es ++ es') = layer d es ++ layer d es' := by
  induction d generalizing es es' with
  | zero => rfl
  | succ d ih =>
      unfold layer
      rw [List.flatMap_append, ih]

theorem layer_nil (d : Nat) : layer d [] = [] := by
  induction d with
  | zero => rfl
  | succ d ih => exact ih

/-- A single list stands inside none, and all else in it one list further inside. -/
theorem mem_layer_list {d : Nat} {x : Sexp} {o : Outline} {role : Role} {es : List Sexp}
    (h : x ∈ layer d [list o role es]) :
    (d = 0 ∧ x = list o role es) ∨ ∃ d', d = d' + 1 ∧ x ∈ layer d' es := by
  cases d with
  | zero => exact .inl ⟨rfl, List.mem_singleton.1 h⟩
  | succ d =>
      unfold layer at h
      rw [List.flatMap_singleton] at h
      exact .inr ⟨d, rfl, h⟩

theorem mem_nodes_self (e : Sexp) : e ∈ e.nodes := by
  cases e <;> exact List.mem_cons_self

theorem mem_allNodes_of_mem_layer {d : Nat} {x : Sexp} {es : List Sexp} (h : x ∈ layer d es) :
    x ∈ allNodes es := by
  induction d generalizing es with
  | zero => exact mem_allNodes.2 ⟨x, h, x.mem_nodes_self⟩
  | succ d ih =>
      obtain ⟨y, hy, hx⟩ := mem_allNodes.1 (ih h)
      obtain ⟨e, he, hy⟩ := List.mem_flatMap.1 hy
      refine mem_allNodes.2 ⟨e, he, ?_⟩
      cases e with
      | atom a => cases hy
      | list o role inner => exact List.mem_cons_of_mem _ (mem_allNodes.2 ⟨y, hy, hx⟩)

/-- A single atom stands inside no list and has nothing inside. -/
theorem mem_layer_atom {d : Nat} {x : Sexp} {a : Atom} (h : x ∈ layer d [atom a]) :
    x = atom a := by
  cases d with
  | zero => exact List.mem_singleton.1 h
  | succ d =>
      have hnil : x ∈ layer d [] := h
      rw [layer_nil] at hnil
      cases hnil

/-- Whether a list that starts at `p` stands inside exactly `d` lists. -/
def HasList (d : Nat) (p : Position) (es : List Sexp) : Prop :=
  ∃ o role inner, list o role inner ∈ layer d es ∧ o.start = p

section

variable {d : Nat} {p : Position} {es : List Sexp}

theorem HasList.append_right (h : HasList d p es) (es' : List Sexp) :
    HasList d p (es ++ es') := by
  obtain ⟨o, role, inner, hmem, hp⟩ := h
  refine ⟨o, role, inner, ?_, hp⟩
  rw [layer_append]
  exact List.mem_append_left _ hmem

theorem HasList.append_left (h : HasList d p es) (es' : List Sexp) :
    HasList d p (es' ++ es) := by
  obtain ⟨o, role, inner, hmem, hp⟩ := h
  refine ⟨o, role, inner, ?_, hp⟩
  rw [layer_append]
  exact List.mem_append_right _ hmem

theorem HasList.inside (h : HasList d p es) (o : Outline) (role : Role) :
    HasList (d + 1) p [list o role es] := by
  obtain ⟨o', role', inner, hmem, hp⟩ := h
  refine ⟨o', role', inner, ?_, hp⟩
  unfold layer
  rw [List.flatMap_singleton]
  exact hmem

theorem hasList_singleton (o : Outline) (role : Role) (es : List Sexp) :
    HasList 0 o.start [list o role es] := ⟨o, role, es, List.mem_singleton_self _, rfl⟩

end

end Sexp

/-! ## §3. Nesting along the rules. -/

section

variable {ts : List Token} {us : List Taint}

theorem TokenAt.lt {i : Nat} {x : Token} {u : Taint} (h : TokenAt ts us i x u) :
    i < ts.length := (List.getElem?_eq_some_iff.1 h.1).1

theorem TokenAt.nesting_succ {i : Nat} {x : Token} {u : Taint} (h : TokenAt ts us i x u)
    (hk : x.kind.isParen = false) : nesting (ts.take (i + 1)) = nesting (ts.take i) := by
  rw [nesting_take_succ h.1, Kind.nest_of_not_isParen hk]

/-- Whether expressions of height `n` that were read from token `i` up to token `j`
inside `d` lists are as high as these tokens are nested, up to the cap. -/
structure IsAsHigh (ts : List Token) (d i j n : Nat) : Prop where
  /-- Behind the expressions all is closed that was opened, unless the text ends. -/
  level : nesting (ts.take j) = d ∨ j = ts.length
  bound : ∀ m, i ≤ m → m ≤ j → min (nesting (ts.take m)) (maxDepth + 1) ≤ d + n
  reached : ∃ m, i ≤ m ∧ m ≤ j ∧ min (nesting (ts.take m)) (maxDepth + 1) = d + n

namespace IsAsHigh

variable {d i j k n : Nat} {t u : Taint}

theorem level_of_lt (h : IsAsHigh ts d i j n) (hj : j < ts.length) :
    nesting (ts.take j) = d := h.level.resolve_right (Nat.ne_of_lt hj)

/-- A token may follow that opens and closes nothing. -/
theorem succ (h : IsAsHigh ts d i j n) (hj : j < ts.length)
    (hsame : nesting (ts.take (j + 1)) = nesting (ts.take j)) : IsAsHigh ts d i (j + 1) n := by
  obtain ⟨m, hi, hm, heq⟩ := h.reached
  refine ⟨.inl (hsame.trans (h.level_of_lt hj)), ?_, m, hi, Nat.le_succ_of_le hm, heq⟩
  intro m' hi' hm'
  by_cases hlast : m' ≤ j
  · exact h.bound m' hi' hlast
  · obtain rfl : m' = j + 1 := by omega
    rw [hsame]
    exact h.bound j (by omega) (Nat.le_refl _)

/-- Trivia and prefix operators open and close nothing. -/
theorem lead (h : IsAsHigh ts d i j n) (hl : Lead ts us j t k u) : IsAsHigh ts d i k n := by
  induction hl with
  | start => exact h
  | trivia _ hx hk ih => exact ih.succ hx.lt (hx.nesting_succ (Kind.isParen_of_isTrivia hk))
  | operator _ hx hk ih => exact ih.succ hx.lt (hx.nesting_succ (Kind.isParen_of_isOperator hk))

/-- A list behind the expressions: it is as high as its inside is nested. -/
theorem list {q n' p : Nat} {stop : Position} {closed : Bool} (h : IsAsHigh ts d i k n)
    (hd : d ≤ maxDepth) (hk : k < ts.length)
    (hbound : ∀ m, k + 1 ≤ m → m ≤ p → min (nesting (ts.take m)) (maxDepth + 1) ≤ d + 1 + n')
    (hreached : ∃ m, k + 1 ≤ m ∧ m ≤ p
      ∧ min (nesting (ts.take m)) (maxDepth + 1) = d + 1 + n')
    (ends : Ends ts us k u p q stop closed) : IsAsHigh ts d i q (max n (n' + 1)) := by
  have hlevel := h.level_of_lt hk
  -- behind the list all is as before it, or the text ends
  have hbehind : (nesting (ts.take q) = d ∨ q = ts.length)
      ∧ (q = p ∨ q = p + 1 ∧ nesting (ts.take q) = d) := by
    cases ends with
    | closed hy hp =>
        have hq : nesting (ts.take (p + 1)) = d := hp.outside.trans hlevel
        exact ⟨.inl hq, .inr ⟨rfl, hq⟩⟩
    | unclosed hn => exact ⟨.inr rfl, .inl hn.symm⟩
  obtain ⟨hq, hcases⟩ := hbehind
  obtain ⟨m₁, hi₁, hk₁, hm₁⟩ := h.reached
  obtain ⟨m₂, hk₂, hp₂, hm₂⟩ := hreached
  refine ⟨hq, ?_, ?_⟩
  · intro m hi hm
    by_cases hmk : m ≤ k
    · have := h.bound m hi hmk
      omega
    · by_cases hmp : m ≤ p
      · have := hbound m (by omega) hmp
        omega
      · obtain ⟨rfl, hnest⟩ : q = p + 1 ∧ nesting (ts.take q) = d := by omega
        obtain rfl : m = p + 1 := by omega
        omega
  · have := ends.le
    by_cases hmax : n ≤ n' + 1
    · exact ⟨m₂, by omega, by omega, by omega⟩
    · exact ⟨m₁, hi₁, by omega, by omega⟩

end IsAsHigh

theorem Ends.inside {k n q : Nat} {u : Taint} {stop : Position} {closed : Bool}
    (h : Ends ts us k u n q stop closed) :
    ∀ m, k < m → m ≤ n → nesting (ts.take k) < nesting (ts.take m) := by
  cases h with
  | closed _ hp => exact hp.inside
  | unclosed hn ho =>
      intro m hk hm
      exact ho.2 m hk (hn ▸ hm)

/-- **Expressions are as high as their tokens are nested.**  By induction over the
rules, with what is nested inside a list counted from outside all lists. -/
theorem Row.isAsHigh {d i j : Nat} {t : Taint} {es : List Sexp} (h : Row ts us d t i j es)
    (hd : d ≤ maxDepth) (hlevel : nesting (ts.take i) = d) :
    IsAsHigh ts d i j (Sexp.heightAll es) := by
  induction h with
  | nil =>
      refine ⟨.inl hlevel, ?_, _, Nat.le_refl _, Nat.le_refl _, ?_⟩
      · intro m hm hm'
        rw [Nat.le_antisymm hm' hm, hlevel]
        exact Nat.min_le_left _ _
      · rw [hlevel]
        exact Nat.min_eq_left (Nat.le_succ_of_le hd)
  | atom before lead hx hk ih =>
      rw [Sexp.heightAll_append, Sexp.heightAll_singleton, Sexp.height_atom, Nat.max_zero]
      exact ((ih hd hlevel).lead lead).succ hx.lt
        (hx.nesting_succ (Kind.isParen_of_isAtomic hk))
  | stray before lead hx hk hn ih =>
      rw [Sexp.heightAll_append, Sexp.heightAll_singleton, Sexp.height_atom, Nat.max_zero]
      refine ((ih hd hlevel).lead lead).succ hx.lt ?_
      -- nothing is open, so nothing is closed
      rw [nesting_take_succ hx.1, hk, hn]
      rfl
  | @list d i j k m n q t u v es inner x stop closed before lead hlt hx hk inside trail ends ih
      ihInside =>
      have hbefore := (ih hd hlevel).lead lead
      have hopen : nesting (ts.take (k + 1)) = d + 1 := by
        rw [nesting_take_succ hx.1, hk, hbefore.level_of_lt hx.lt]
        rfl
      have hinside := (ihInside hlt hopen).lead trail
      rw [Sexp.heightAll_append, Sexp.heightAll_singleton, Sexp.height_list]
      exact hbefore.list hd hx.lt hinside.bound hinside.reached ends
  | @flat i j k n q t u es inner x stop closed before lead hx hk inside ends ih =>
      have hbefore := (ih hd hlevel).lead lead
      have hfull := hbefore.level_of_lt hx.lt
      have hzero : Sexp.heightAll inner = 0 := Sexp.heightAll_eq_zero fun y hy =>
        inside.eq_atom y (Sexp.mem_allNodes.2 ⟨y, hy, y.mem_nodes_self⟩)
      -- inside the list more is open than the cap counts
      have hinside : ∀ m, k + 1 ≤ m → m ≤ n →
          min (nesting (ts.take m)) (maxDepth + 1) = maxDepth + 1 + 0 := by
        intro m hm hm'
        have := ends.inside m hm hm'
        omega
      rw [Sexp.heightAll_append, Sexp.heightAll_singleton, Sexp.height_list, hzero]
      refine hbefore.list hd hx.lt (fun m hm hm' => Nat.le_of_eq (hinside m hm hm')) ?_ ends
      exact ⟨k + 1, Nat.le_refl _, inside.le, hinside _ (Nat.le_refl _) inside.le⟩

end

/-- **The expressions of a text are as high as it is nested, up to the cap.** -/
theorem heightAll_read (ts : List Token) :
    Sexp.heightAll (read ts).forms = min (peak ts) (maxDepth + 1) := by
  obtain ⟨j, u, row, hl⟩ := row_read ts
  have h := (row.isAsHigh (Nat.zero_le _) rfl).lead hl
  obtain ⟨m, _, hm, hreached⟩ := h.reached
  have hle := le_peak hm
  rw [Nat.zero_add] at hreached
  refine Nat.le_antisymm (by omega) ?_
  -- the greatest number of open parens is one that is reached
  by_cases hcap : Sexp.heightAll (read ts).forms = maxDepth + 1
  · omega
  · have hpeak : peak ts ≤ Sexp.heightAll (read ts).forms := by
      refine peak_le_iff.2 ?_
      intro k hk
      have := h.bound k (Nat.zero_le _) hk
      omega
    omega

/-! ## §4. Lists that are read flat. -/

/-- A text is being read flat exactly while more parens are open than lists are read
as trees. -/
theorem isSome_flat_pushAll (ts : List Token) :
    (Reading.begin.pushAll ts).flat.isSome = true ↔ maxDepth < nesting ts := by
  obtain ⟨hcapped, hdepth, _⟩ := Reading.depth_pushAll Reading.isCapped_begin ts
  have hdepth : (Reading.begin.pushAll ts).depth = nesting ts := hdepth
  rw [← hdepth, Reading.depth]
  cases hf : (Reading.begin.pushAll ts).flat with
  | none =>
      have := hcapped.stack_le
      rw [Reading.flatDepth_of_none hf]
      simp only [Option.isSome_none, Bool.false_eq_true, false_iff]
      omega
  | some f =>
      have := hcapped.flat_at f hf
      rw [Reading.flatDepth_of_some hf]
      simp only [Option.isSome_some, true_iff]
      omega

/-- Whether reading turns flat at token `k`. -/
def TurnsFlat (ts : List Token) (k : Nat) : Prop :=
  (Reading.begin.pushAll (ts.take k)).flat.isSome = false
    ∧ (Reading.begin.pushAll (ts.take (k + 1))).flat.isSome = true

/-- The token with index `k` as an element of a list that is read flat: trivia and
parens make none. -/
def flatAtom? (ts : List Token) (u : Taint) (k : Nat) : Option Sexp :=
  (ts[k]?.filter fun t => !t.kind.isTrivia && !t.kind.isParen).map fun t => .atom ⟨t, k, u⟩

/-- The tokens from `i` up to `j` as the elements of a list that is read flat. -/
def flatAtoms (ts : List Token) (u : Taint) (i j : Nat) : List Sexp :=
  (List.range' i (j - i)).filterMap (flatAtom? ts u)

theorem flatAtoms_succ (ts : List Token) (u : Taint) {i j : Nat} (h : i ≤ j) :
    flatAtoms ts u i (j + 1) = flatAtoms ts u i j ++ (flatAtom? ts u j).toList := by
  have hcount : j + 1 - i = j - i + 1 := by omega
  have hlast : i + (j - i) = j := by omega
  unfold flatAtoms
  rw [hcount, List.range'_1_concat, List.filterMap_append, hlast]
  cases h : flatAtom? ts u j <;> simp [h]

section

variable {ts : List Token} {us : List Taint}

theorem flatAtom?_eq_none {u : Taint} {k : Nat} {x : Token} (hx : ts[k]? = some x)
    (hk : x.kind.isTrivia = true ∨ x.kind.isParen = true) : flatAtom? ts u k = none := by
  unfold flatAtom?
  rw [hx]
  rcases hk with hk | hk <;> simp [Option.filter, hk]

theorem flatAtom?_eq_some {u : Taint} {k : Nat} {x : Token} (hx : ts[k]? = some x)
    (hk : x.kind.isAtomic = true ∨ x.kind.isOperator = true) :
    flatAtom? ts u k = some (.atom ⟨x, k, u⟩) := by
  have hplain : (!x.kind.isTrivia && !x.kind.isParen) = true := by
    revert hk
    cases x.kind <;> decide
  unfold flatAtom?
  simp only [hx, Option.filter, hplain, if_true, Option.map_some]

/-- **The elements of a list that is read flat are the tokens in it.** -/
theorem FlatRow.eq_flatAtoms {u : Taint} {i j : Nat} {es : List Sexp}
    (h : FlatRow ts us u i j es) : es = flatAtoms ts u i j := by
  induction h with
  | nil =>
      unfold flatAtoms
      rw [Nat.sub_self]
      rfl
  | trivia before hx hk ih =>
      rw [flatAtoms_succ ts u before.le, ← ih, flatAtom?_eq_none hx.1 (.inl hk)]
      exact (List.append_nil _).symm
  | paren before hx hk ih =>
      rw [flatAtoms_succ ts u before.le, ← ih, flatAtom?_eq_none hx.1 (.inr hk)]
      exact (List.append_nil _).symm
  | atom before hx hk ih =>
      rw [flatAtoms_succ ts u before.le, ← ih, flatAtom?_eq_some hx.1 hk]
      rfl

/-- What the rules say of a list whose open paren is token `k` and that `d` lists
enclose. -/
inductive IsReadIn (ts : List Token) (us : List Taint) (d k : Nat) :
    Outline → Role → List Sexp → Prop where
  | tree {m n q : Nat} {u v : Taint} {inner : List Sexp} {x : Token} {stop : Position}
      {closed : Bool} (hd : d < maxDepth) (hlevel : nesting (ts.take k) = d)
      (hx : TokenAt ts us k x u) (hk : x.kind = .openParen)
      (inside : Row ts us (d + 1) u (k + 1) m inner) (trail : Lead ts us m u n v)
      (ends : Ends ts us k u n q stop closed) :
      IsReadIn ts us d k ⟨x.start, stop, closed, u⟩ (Recognition.ofList u inner).role inner
  | flat {n q : Nat} {u : Taint} {inner : List Sexp} {x : Token} {stop : Position}
      {closed : Bool} (hd : d = maxDepth) (hlevel : nesting (ts.take k) = d)
      (hx : TokenAt ts us k x u) (hk : x.kind = .openParen)
      (inside : FlatRow ts us u (k + 1) n inner) (ends : Ends ts us k u n q stop closed) :
      IsReadIn ts us d k ⟨x.start, stop, closed, u⟩ .plain inner

/-- **Every list of a row is read by the rules, and how far inside it stands is how far
its paren is nested.** -/
theorem Row.isReadIn {d i j : Nat} {t : Taint} {es : List Sexp} (h : Row ts us d t i j es)
    (hd : d ≤ maxDepth) (hlevel : nesting (ts.take i) = d) :
    ∀ e o role inner, .list o role inner ∈ Sexp.layer e es →
      ∃ k, IsReadIn ts us (d + e) k o role inner := by
  induction h with
  | nil =>
      intro e o role inner hmem
      rw [Sexp.layer_nil] at hmem
      cases hmem
  | atom before _ _ _ ih | stray before _ _ _ _ ih =>
      intro e o role inner hmem
      rw [Sexp.layer_append] at hmem
      rcases List.mem_append.1 hmem with hmem | hmem
      · exact ih hd hlevel e o role inner hmem
      · cases Sexp.mem_layer_atom hmem
  | @list d i j k m n q t u v es inner x stop closed before lead hlt hx hk inside trail ends ih
      ihInside =>
      have hopen := ((before.isAsHigh hd hlevel).lead lead).level_of_lt hx.lt
      intro e o role inner' hmem
      rw [Sexp.layer_append] at hmem
      rcases List.mem_append.1 hmem with hmem | hmem
      · exact ih hd hlevel e o role inner' hmem
      · rcases Sexp.mem_layer_list hmem with ⟨rfl, heq⟩ | ⟨e', rfl, hinner⟩
        · cases heq
          exact ⟨k, .tree hlt hopen hx hk inside trail ends⟩
        · -- one list further inside
          have hopen' : nesting (ts.take (k + 1)) = d + 1 := by
            rw [nesting_take_succ hx.1, hk, hopen]
            rfl
          have hread := ihInside hlt hopen' e' o role inner' hinner
          rw [Nat.add_right_comm] at hread
          exact hread
  | @flat i j k n q t u es inner x stop closed before lead hx hk inside ends ih =>
      have hopen := ((before.isAsHigh hd hlevel).lead lead).level_of_lt hx.lt
      intro e o role inner' hmem
      rw [Sexp.layer_append] at hmem
      rcases List.mem_append.1 hmem with hmem | hmem
      · exact ih hd hlevel e o role inner' hmem
      · rcases Sexp.mem_layer_list hmem with ⟨rfl, heq⟩ | ⟨e', rfl, hinner⟩
        · cases heq
          exact ⟨k, .flat rfl hopen hx hk inside ends⟩
        · obtain ⟨a, ha⟩ := inside.eq_atom _ (Sexp.mem_allNodes_of_mem_layer hinner)
          cases ha

/-- Whether every open paren from token `i` up to token `j` opens a list among the
expressions that stands as far inside, but for those inside more than `maxDepth`
others.  Around the expressions there are `d` lists. -/
def OpensLists (ts : List Token) (d i j : Nat) (es : List Sexp) : Prop :=
  ∀ k y, i ≤ k → k < j → ts[k]? = some y → y.kind = .openParen →
    nesting (ts.take k) ≤ maxDepth →
    ∃ e, d + e = nesting (ts.take k) ∧ Sexp.HasList e y.start es

namespace OpensLists

variable {d i j k : Nat} {t u : Taint} {es : List Sexp} {x : Token}

theorem nil (ts : List Token) (d i : Nat) (es : List Sexp) : OpensLists ts d i i es := by
  intro k y hi hk
  omega

theorem append (h : OpensLists ts d i j es) (e : Sexp) : OpensLists ts d i j (es ++ [e]) := by
  intro k y hi hk hy hopen hcap
  obtain ⟨n, hn, hlist⟩ := h k y hi hk hy hopen hcap
  exact ⟨n, hn, hlist.append_right _⟩

/-- A token that opens nothing may follow. -/
theorem succ (h : OpensLists ts d i j es) (hx : ts[j]? = some x) (hk : x.kind ≠ .openParen) :
    OpensLists ts d i (j + 1) es := by
  intro k y hi hkj hy hopen hcap
  rcases Nat.lt_succ_iff_lt_or_eq.1 hkj with hkj | rfl
  · exact h k y hi hkj hy hopen hcap
  · cases hx.symm.trans hy
    exact absurd hopen hk

theorem lead (h : OpensLists ts d i j es) (hl : Lead ts us j t k u) :
    OpensLists ts d i k es := by
  induction hl with
  | start => exact h
  | trivia _ hx hk ih =>
      refine ih.succ hx.1 ?_
      intro hopen
      rw [hopen] at hk
      cases hk
  | operator _ hx hk ih =>
      refine ih.succ hx.1 ?_
      intro hopen
      rw [hopen] at hk
      cases hk

/-- An open paren opens the list that follows, and the others are inside it. -/
theorem list {n q : Nat} {stop : Position} {closed : Bool} {inner : List Sexp}
    (h : OpensLists ts d i k es) (hx : TokenAt ts us k x u) (hlevel : nesting (ts.take k) = d)
    (hinside : OpensLists ts (d + 1) (k + 1) n inner) (ends : Ends ts us k u n q stop closed)
    (role : Role) :
    OpensLists ts d i q (es ++ [.list ⟨x.start, stop, closed, u⟩ role inner]) := by
  have hn : OpensLists ts d i n (es ++ [.list ⟨x.start, stop, closed, u⟩ role inner]) := by
    intro m y hi hm hy hopen hcap
    by_cases hmk : m < k
    · exact h.append _ m y hi hmk hy hopen hcap
    by_cases hmk' : m = k
    · subst hmk'
      cases hx.1.symm.trans hy
      exact ⟨0, hlevel.symm, (Sexp.hasList_singleton ⟨x.start, _, _, _⟩ _ _).append_left _⟩
    · obtain ⟨e, he, hlist⟩ := hinside m y (by omega) hm hy hopen hcap
      exact ⟨e + 1, by omega, (hlist.inside _ _).append_left _⟩
  cases ends with
  | closed hy hpartners =>
      refine hn.succ hy.1 ?_
      rw [hy.kind_eq hpartners.closes]
      decide
  | unclosed hlast => exact hlast ▸ hn

end OpensLists

/-- **Every open paren inside no more than `maxDepth` others opens a list**, and this
list stands as far inside. -/
theorem Row.opensLists {d i j : Nat} {t : Taint} {es : List Sexp} (h : Row ts us d t i j es)
    (hd : d ≤ maxDepth) (hlevel : nesting (ts.take i) = d) :
    OpensLists ts d i j es := by
  induction h with
  | nil => exact .nil ts _ _ _
  | atom before lead hx hk ih =>
      refine (((ih hd hlevel).lead lead).succ hx.1 ?_).append _
      intro hopen
      rw [hopen] at hk
      cases hk
  | stray before lead hx hk hn ih =>
      refine (((ih hd hlevel).lead lead).succ hx.1 ?_).append _
      rw [hk]
      decide
  | list before lead hlt hx hk inside trail ends ih ihInside =>
      have hopen := ((before.isAsHigh hd hlevel).lead lead).level_of_lt hx.lt
      have hopen' := nesting_take_succ hx.1
      rw [hk, hopen] at hopen'
      have hinside := (ihInside hlt hopen').lead trail
      exact ((ih hd hlevel).lead lead).list hx hopen hinside ends _
  | flat before lead hx hk inside ends ih =>
      have hopen := ((before.isAsHigh hd hlevel).lead lead).level_of_lt hx.lt
      refine ((ih hd hlevel).lead lead).list hx hopen ?_ ends _
      -- inside the list more is open than that
      intro m y hm hmn _ _ hcap
      have := ends.inside m hm (Nat.le_of_lt hmn)
      omega

end

/-! ## §5. The cap. -/

/-- What is read from the open paren `k`, with all up to token `n` inside, as a list
that is read flat.  It consumes the tokens up to the partner of its paren, or to the
end of the text if there is none. -/
structure IsFlatUpTo (ts : List Token) (k n : Nat) (o : Outline) (role : Role)
    (es : List Sexp) : Prop where
  role : role = .plain
  elements : es = flatAtoms ts o.taint (k + 1) n
  atoms : ∀ e ∈ es, ∃ a, e = .atom a
  flat : ∀ m, k < m → m ≤ n → (Reading.begin.pushAll (ts.take m)).flat.isSome = true
  ends : (ArePartners ts k n ∧ o.closed = true
      ∧ (Reading.begin.pushAll (ts.take (n + 1))).flat.isSome = false)
    ∨ (n = ts.length ∧ o.closed = false ∧ StaysOpen ts k)

section

variable {ts : List Token} {us : List Taint} {d k : Nat} {o : Outline} {role : Role}
  {es : List Sexp}

/-- A list is closed exactly if its open paren has a partner. -/
theorem Ends.closed_iff {n q : Nat} {u : Taint} {stop : Position} {closed : Bool}
    (h : Ends ts us k u n q stop closed) : closed = true ↔ ∃ m, ArePartners ts k m := by
  cases h with
  | closed _ hp => exact iff_of_true rfl ⟨n, hp⟩
  | unclosed _ hopen =>
      refine iff_of_false Bool.false_ne_true ?_
      rintro ⟨m, hp⟩
      obtain ⟨y, hy, _⟩ := hp.closes
      have hm := (List.getElem?_eq_some_iff.1 hy).1
      have := hopen.2 (m + 1) (Nat.lt_succ_of_lt hp.lt) hm
      rw [hp.outside] at this
      exact Nat.lt_irrefl _ this

namespace IsReadIn

theorem opens (h : IsReadIn ts us d k o role es) :
    ∃ x, ts[k]? = some x ∧ x.kind = .openParen ∧ o.start = x.start := by
  cases h with
  | tree _ _ hx hk | flat _ _ hx hk => exact ⟨_, hx.1, hk, rfl⟩

theorem level (h : IsReadIn ts us d k o role es) : nesting (ts.take k) = d ∧ d ≤ maxDepth := by
  cases h with
  | tree hd hlevel => exact ⟨hlevel, Nat.le_of_lt hd⟩
  | flat hd hlevel => exact ⟨hlevel, Nat.le_of_eq hd⟩

theorem closed_iff (h : IsReadIn ts us d k o role es) :
    o.closed = true ↔ ∃ n, ArePartners ts k n := by
  cases h with
  | tree _ _ _ _ _ _ ends | flat _ _ _ _ _ ends => exact ends.closed_iff

/-- Reading turns flat at an open paren exactly if there are as many lists around it as
are read as trees. -/
theorem turnsFlat_iff (h : IsReadIn ts us d k o role es) : TurnsFlat ts k ↔ d = maxDepth := by
  obtain ⟨hlevel, hd⟩ := h.level
  obtain ⟨x, hx, hk, _⟩ := h.opens
  have hsucc := nesting_take_succ hx
  rw [hk, hlevel] at hsucc
  have hsucc : nesting (ts.take (k + 1)) = d + 1 := hsucc
  unfold TurnsFlat
  rw [Bool.eq_false_iff, Ne, isSome_flat_pushAll, isSome_flat_pushAll, hlevel, hsucc]
  omega

theorem isFlatUpTo (h : IsReadIn ts us maxDepth k o role es) :
    ∃ n, IsFlatUpTo ts k n o role es := by
  cases h with
  | tree hd => exact absurd hd (Nat.lt_irrefl _)
  | @flat n q u _ x stop closed _ hlevel hx hk inside ends =>
      refine ⟨n, rfl, inside.eq_flatAtoms, ?_, ?_, ?_⟩
      · exact fun e he => inside.eq_atom e (Sexp.mem_allNodes.2 ⟨e, he, e.mem_nodes_self⟩)
      · intro m hkm hmn
        rw [isSome_flat_pushAll, ← hlevel]
        exact ends.inside m hkm hmn
      · cases ends with
        | closed _ hp =>
            refine .inl ⟨hp, rfl, ?_⟩
            rw [Bool.eq_false_iff, Ne, isSome_flat_pushAll, hp.outside, hlevel]
            exact Nat.lt_irrefl _
        | unclosed hn hopen => exact .inr ⟨hn, rfl, hopen⟩

/-- Any other list is read as a tree, and recognised. -/
theorem role_eq (h : IsReadIn ts us d k o role es) (hd : d < maxDepth) :
    role = (Recognition.ofList o.taint es).role := by
  cases h with
  | tree => rfl
  | flat hd' => omega

end IsReadIn

end

/-- **The cap on nesting.**  The expressions of a text, with all that bindings keep, are
exactly as high as the parens of the text are nested, up to one more than the cap.
Every open paren inside no more than `maxDepth` others is a list inside as many lists,
and there are no other lists.  Reading turns flat at the paren of a list exactly if
`maxDepth` lists enclose it; then the list is what is between the paren and its
partner, or the end of the text if it has none, without trivia and parens.  A list is
closed exactly if its paren has a partner. -/
theorem nesting_is_capped (text : String) :
    let ts := tokenize text
    Sexp.heightAll (parse text) = min (peak ts) (maxDepth + 1)
      ∧ (∀ k x, ts[k]? = some x → x.kind = .openParen → nesting (ts.take k) ≤ maxDepth →
          Sexp.HasList (nesting (ts.take k)) x.start (parse text))
      ∧ ∀ d o role es, .list o role es ∈ Sexp.layer d (parse text) →
          ∃ k, (∃ x, ts[k]? = some x ∧ x.kind = .openParen ∧ o.start = x.start)
            ∧ (nesting (ts.take k) = d ∧ d ≤ maxDepth)
            ∧ (o.closed = true ↔ ∃ n, ArePartners ts k n)
            ∧ (TurnsFlat ts k ↔ d = maxDepth)
            ∧ (d = maxDepth → ∃ n, IsFlatUpTo ts k n o role es)
            ∧ (d < maxDepth → role = (Recognition.ofList o.taint es).role) := by
  intro ts
  obtain ⟨j, u, row, hl⟩ := row_read ts
  refine ⟨heightAll_read ts, ?_, ?_⟩
  · intro k x hx hk hcap
    have hlt := (List.getElem?_eq_some_iff.1 hx).1
    obtain ⟨e, he, hlist⟩ := ((row.opensLists (Nat.zero_le _) rfl).lead hl)
      k x (Nat.zero_le _) hlt hx hk hcap
    rw [Nat.zero_add] at he
    exact he ▸ hlist
  · intro d o role es hmem
    obtain ⟨k, h⟩ := row.isReadIn (Nat.zero_le _) rfl d o role es hmem
    rw [Nat.zero_add] at h
    refine ⟨k, h.opens, h.level, h.closed_iff, h.turnsFlat_iff, ?_, h.role_eq⟩
    intro hd
    subst hd
    exact h.isFlatUpTo

end LispLink.Source
