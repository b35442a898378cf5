/-
  LispLink.Proofs.Source.Copies
  ────────────────────────────────
  **HOW MUCH IS KEPT OF A TEXT.**

  Each expression that is read has a token of its own, so there are no more of them
  than tokens.  But a `let` keeps the values of its bindings beside the entries they
  stand in, and keeps them whole.  So whatever stands in a binding list may be there
  twice, and twice again for each further `let` around it:

      sizeAll (read ts).forms  ≤  2 ^ letDepthAll (read ts).forms · (number of tokens)

  where `letDepth` is the greatest number of `let`s that have an expression in their
  binding lists.  This is as good as it gets: `let`s that are nested as deep as any
  number `n` in each other's values, with `m` names inside, have

      2 ^ n · (m + 6) - 5

  expressions for `8 · n + m + 2` tokens.  No factor bounds that but one that doubles
  with every level, up to the cap on nesting.
-/
import LispLink.Proofs.Source.Depth
import LispLink.Proofs.Value.RoundTrip
import Mathlib.Algebra.GroupWithZero.Nat

namespace LispLink.Source

/-! ## §1. Sizes. -/

namespace Sexp

/-- The values that the bindings of a `let` keep. -/
def kept (e : Sexp) : List Sexp := e.bindings.filterMap Binding.value

/-- How many expressions an expression consists of, itself included: what bindings
keep is counted, although it stands further inside as well. -/
def size : Sexp → Nat
  | atom _ => 1
  | list o role es => ((list o role es).held.attach.map fun x => x.1.size).sum + 1
decreasing_by exact sizeOf_lt_of_mem_held x.2

/-- How many expressions some expressions consist of. -/
def sizeAll (es : List Sexp) : Nat := (es.map size).sum

@[simp] theorem size_atom (a : Atom) : (atom a).size = 1 := by
  unfold size
  rfl

@[simp] theorem sizeAll_nil : sizeAll [] = 0 := rfl

@[simp] theorem sizeAll_cons (e : Sexp) (es : List Sexp) :
    sizeAll (e :: es) = e.size + sizeAll es := rfl

theorem sizeAll_append (es es' : List Sexp) :
    sizeAll (es ++ es') = sizeAll es + sizeAll es' := by
  unfold sizeAll
  rw [List.map_append, List.sum_append]

theorem size_list (o : Outline) (role : Role) (es : List Sexp) :
    (list o role es).size = sizeAll es + sizeAll (list o role es).kept + 1 := by
  rw [size, List.attach_map_val, ← sizeAll_append]
  rfl

theorem size_le_sizeAll {e : Sexp} {es : List Sexp} (h : e ∈ es) : e.size ≤ sizeAll es := by
  obtain ⟨before, after, rfl⟩ := List.append_of_mem h
  rw [sizeAll_append, sizeAll_cons]
  omega

theorem sizeAll_elements_le (e : Sexp) : sizeAll e.elements ≤ e.size := by
  cases e with
  | atom a => exact Nat.zero_le _
  | list o role es =>
      rw [size_list]
      show sizeAll es ≤ _
      omega

/-- What the bindings of a binding list keep are parts of different entries. -/
theorem sizeAll_values_le (entries : List Sexp) :
    sizeAll ((Binding.ofEntries entries).filterMap Binding.value) ≤ sizeAll entries := by
  unfold Binding.ofEntries
  rw [List.filterMap_filterMap]
  induction entries with
  | nil => exact Nat.le_refl _
  | cons entry entries ih =>
      rw [List.filterMap_cons, sizeAll_cons]
      cases hvalue : (Binding.ofEntry? entry).bind Binding.value with
      | none => exact Nat.le_trans ih (Nat.le_add_left _ _)
      | some x =>
          have hx : x ∈ entry.elements := by
            cases entry with
            | atom a => cases hvalue
            | list o role es =>
                obtain ⟨b, hb, hx⟩ := Option.bind_eq_some_iff.1 hvalue
                obtain ⟨a, _, rfl⟩ := Option.map_eq_some_iff.1 hb
                exact List.mem_of_getElem? hx
          have hsize : x.size ≤ entry.size :=
            Nat.le_trans (size_le_sizeAll hx) entry.sizeAll_elements_le
          rw [sizeAll_cons]
          exact Nat.add_le_add hsize ih

/-! ## §2. Lets in binding lists. -/

/-- The binding list of a `let`. -/
def bindingList? : Sexp → Option Sexp
  | list _ .locals (_ :: list o role entries :: _) => some (list o role entries)
  | _ => none

theorem mem_elements_of_bindingList? {e b : Sexp} (h : e.bindingList? = some b) :
    b ∈ e.elements := by
  unfold bindingList? at h
  split at h
  · cases h
    exact List.mem_cons_of_mem _ List.mem_cons_self
  · cases h

theorem height_pos_of_bindingList? {e b : Sexp} (h : e.bindingList? = some b) :
    0 < b.height := by
  unfold bindingList? at h
  split at h
  · cases h
    rw [height_list]
    exact Nat.succ_pos _
  · cases h

/-- Where no binding list is, nothing is kept. -/
theorem kept_of_bindingList?_none {e : Sexp} (h : e.bindingList? = none) : e.kept = [] := by
  unfold kept bindings
  split
  · rename_i o a entries rest
    cases entries with
    | atom _ => rfl
    | list _ _ _ => cases h
  · rfl

/-- What is kept, beside the elements, is no more than the binding list. -/
theorem sizeAll_kept_le {e b : Sexp} (h : e.bindingList? = some b) :
    sizeAll e.kept ≤ b.size := by
  unfold bindingList? at h
  split at h
  · cases h
    exact Nat.le_trans (sizeAll_values_le _) (sizeAll_elements_le (list _ _ _))
  · cases h

/-- The greatest number of `let`s that have an expression in their binding lists. -/
def letDepth : Sexp → Nat
  | atom _ => 0
  | list o role es =>
    max (greatest (es.attach.map fun x => x.1.letDepth))
      (greatest ((list o role es).bindingList?.toList.attach.map fun x => x.1.letDepth + 1))
decreasing_by
  · exact sizeOf_lt_of_mem_elements (e := list o role es) x.2
  · exact sizeOf_lt_of_mem_elements (mem_elements_of_bindingList? (Option.mem_toList.1 x.2))

/-- The greatest number of `let`s that have one of some expressions, or something in
it, in their binding lists. -/
def letDepthAll (es : List Sexp) : Nat := greatest (es.map letDepth)

@[simp] theorem letDepth_atom (a : Atom) : (atom a).letDepth = 0 := by
  unfold letDepth
  rfl

theorem letDepth_list (o : Outline) (role : Role) (es : List Sexp) :
    (list o role es).letDepth = max (letDepthAll es)
      (greatest ((list o role es).bindingList?.toList.map (·.letDepth + 1))) := by
  have hlist : ∀ bs : List Sexp, (bs.attach.map fun x => x.1.letDepth + 1)
      = bs.map (·.letDepth + 1) :=
    fun _ => List.attach_map_val (f := fun x : Sexp => x.letDepth + 1)
  rw [letDepth, List.attach_map_val, hlist]
  rfl

theorem letDepth_le_letDepthAll {e : Sexp} {es : List Sexp} (h : e ∈ es) :
    e.letDepth ≤ letDepthAll es := le_greatest (List.mem_map_of_mem h)

theorem letDepthAll_le_letDepth (o : Outline) (role : Role) (es : List Sexp) :
    letDepthAll es ≤ (list o role es).letDepth := by
  rw [letDepth_list]
  exact Nat.le_max_left _ _

theorem letDepth_lt_of_bindingList? {e b : Sexp} (h : e.bindingList? = some b) :
    b.letDepth < e.letDepth := by
  cases e with
  | atom a => cases h
  | list o role es =>
      rw [letDepth_list, h]
      exact Nat.le_trans (le_greatest List.mem_cons_self) (Nat.le_max_right _ _)

/-- Each `let` is higher than its binding list, which is a list. -/
theorem letDepth_le_height (e : Sexp) : e.letDepth ≤ e.height - 1 := by
  induction e using letDepth.induct with
  | case1 a => simp
  | case2 o role es ih ihList =>
      rw [letDepth_list, height_list, Nat.add_sub_cancel]
      refine Nat.max_le.2 ⟨greatest_le_iff.2 ?_, greatest_le_iff.2 ?_⟩
      · intro n hn
        obtain ⟨x, hx, rfl⟩ := List.mem_map.1 hn
        have hdepth : x.letDepth ≤ x.height - 1 := ih ⟨x, hx⟩
        have hheight := height_le_heightAll hx
        omega
      · intro n hn
        obtain ⟨b, hb, rfl⟩ := List.mem_map.1 hn
        have hdepth : b.letDepth ≤ b.height - 1 := ihList ⟨b, hb⟩
        have hb := Option.mem_toList.1 hb
        have hheight : b.height ≤ heightAll es :=
          height_le_heightAll (mem_elements_of_bindingList? hb)
        have hpos := height_pos_of_bindingList? hb
        omega

theorem letDepthAll_le_heightAll (es : List Sexp) : letDepthAll es ≤ heightAll es - 1 := by
  refine greatest_le_iff.2 ?_
  intro n hn
  obtain ⟨x, hx, rfl⟩ := List.mem_map.1 hn
  have h1 := x.letDepth_le_height
  have h2 := height_le_heightAll hx
  omega

/-! ## §3. Every level doubles at most. -/

theorem length_allNodes_append (es es' : List Sexp) :
    (allNodes (es ++ es')).length = (allNodes es).length + (allNodes es').length := by
  induction es with
  | nil => exact (Nat.zero_add _).symm
  | cons e es ih =>
      rw [List.cons_append, allNodes, allNodes, List.length_append, List.length_append, ih,
        Nat.add_assoc]

section

variable {es : List Sexp} {k : Nat}

/-- Expressions are as large as the deepest of them may be. -/
theorem sizeAll_le_of_forall (h : ∀ x ∈ es, x.size ≤ 2 ^ x.letDepth * x.nodes.length)
    (hk : letDepthAll es ≤ k) : sizeAll es ≤ 2 ^ k * (allNodes es).length := by
  have hpow : ∀ x ∈ es, x.size ≤ 2 ^ k * x.nodes.length := by
    intro x hx
    have hdepth := Nat.le_trans (letDepth_le_letDepthAll hx) hk
    exact Nat.le_trans (h x hx)
      (Nat.mul_le_mul_right _ (Nat.pow_le_pow_right (by decide) hdepth))
  clear h hk
  induction es with
  | nil => exact Nat.zero_le _
  | cons e es ih =>
      rw [List.forall_mem_cons] at hpow
      rw [sizeAll_cons, allNodes, List.length_append, Nat.mul_add]
      exact Nat.add_le_add hpow.1 (ih hpow.2)

/-- One of them may be there twice if it is less deep than the others may be. -/
theorem sizeAll_add_le_of_forall {b : Sexp}
    (h : ∀ x ∈ es, x.size ≤ 2 ^ x.letDepth * x.nodes.length) (hk : letDepthAll es ≤ k)
    (hb : b ∈ es) (hlt : b.letDepth < k) :
    sizeAll es + b.size ≤ 2 ^ k * (allNodes es).length := by
  have htwice : b.size + b.size ≤ 2 ^ k * b.nodes.length := by
    calc b.size + b.size
        = b.size * 2 := (Nat.mul_two _).symm
      _ ≤ 2 ^ b.letDepth * b.nodes.length * 2 := Nat.mul_le_mul_right 2 (h b hb)
      _ = 2 ^ (b.letDepth + 1) * b.nodes.length := by rw [Nat.pow_succ, Nat.mul_right_comm]
      _ ≤ 2 ^ k * b.nodes.length :=
          Nat.mul_le_mul_right _ (Nat.pow_le_pow_right (by decide) hlt)
  obtain ⟨before, after, rfl⟩ := List.append_of_mem hb
  have hdepth : ∀ xs ⊆ before ++ b :: after, letDepthAll xs ≤ k := by
    intro xs hxs
    refine greatest_le_iff.2 ?_
    intro n hn
    obtain ⟨x, hx, rfl⟩ := List.mem_map.1 hn
    exact Nat.le_trans (letDepth_le_letDepthAll (hxs hx)) hk
  have hbefore : before ⊆ before ++ b :: after := List.subset_append_left _ _
  have hafter : after ⊆ before ++ b :: after :=
    fun x hx => List.mem_append_right _ (List.mem_cons_of_mem _ hx)
  have h1 := sizeAll_le_of_forall (fun x hx => h x (hbefore hx)) (hdepth _ hbefore)
  have h2 := sizeAll_le_of_forall (fun x hx => h x (hafter hx)) (hdepth _ hafter)
  rw [sizeAll_append, sizeAll_cons, length_allNodes_append, allNodes, List.length_append,
    Nat.mul_add, Nat.mul_add]
  omega

end

/-- **Every `let` doubles its binding list at most.** -/
theorem size_le (e : Sexp) : e.size ≤ 2 ^ e.letDepth * e.nodes.length := by
  induction e using size.induct with
  | case1 a => simp [nodes]
  | case2 o role es ih =>
      have hes : ∀ x ∈ es, x.size ≤ 2 ^ x.letDepth * x.nodes.length :=
        fun x hx => ih ⟨x, List.mem_append_left _ hx⟩
      have hself : 1 ≤ 2 ^ (list o role es).letDepth := Nat.one_le_two_pow
      rw [size_list, nodes, List.length_cons, Nat.mul_add, Nat.mul_one]
      cases hlist : (list o role es).bindingList? with
      | none =>
          have hsize := sizeAll_le_of_forall hes (letDepthAll_le_letDepth o role es)
          rw [kept_of_bindingList?_none hlist, sizeAll_nil]
          omega
      | some b =>
          have hsize := sizeAll_add_le_of_forall hes (letDepthAll_le_letDepth o role es)
            (mem_elements_of_bindingList? hlist) (letDepth_lt_of_bindingList? hlist)
          have hkept := sizeAll_kept_le hlist
          omega

theorem sizeAll_le (es : List Sexp) :
    sizeAll es ≤ 2 ^ letDepthAll es * (allNodes es).length :=
  sizeAll_le_of_forall (fun x _ => x.size_le) (Nat.le_refl _)

end Sexp

/-! ## §4. An expression has a token. -/

/-- Writes once for each expression. -/
def tallyPen : Pen Unit := ⟨fun _ _ => [()], fun _ => [()], fun _ => []⟩

mutual

theorem Sexp.length_walk_tallyPen : ∀ e : Sexp, (e.walk tallyPen).length = e.nodes.length
  | .atom _ => rfl
  | .list o _ es => by
      have hclosing : (if o.closed then tallyPen.closing o.stop else []) = [] := by
        split <;> rfl
      have hes := Sexp.length_walkAll_tallyPen es
      rw [walk, hclosing, nodes, List.append_nil, List.length_append, List.length_cons, hes,
        Nat.add_comm]
      rfl

theorem Sexp.length_walkAll_tallyPen :
    ∀ es : List Sexp, (walkAll tallyPen es).length = (allNodes es).length
  | [] => rfl
  | e :: es => by
      rw [walkAll, allNodes, List.length_append, List.length_append,
        Sexp.length_walk_tallyPen e, Sexp.length_walkAll_tallyPen es]

end

theorem length_output_tallyPen (n i : Nat) (t : Token) : (tallyPen.output n i t).length ≤ 1 := by
  unfold Pen.output
  repeat' split
  all_goals simp [tallyPen]

theorem length_outputs_tallyPen (ts : List Token) :
    ∀ n i, (tallyPen.outputs n i ts).length ≤ ts.length := by
  induction ts with
  | nil => exact fun _ _ => Nat.le_refl _
  | cons t ts ih =>
      intro n i
      rw [Pen.outputs, List.length_append, List.length_cons, Nat.add_comm]
      exact Nat.add_le_add (ih _ _) (length_output_tallyPen n i t)

/-- **No more expressions are read than there are tokens.** -/
theorem length_allNodes_read (ts : List Token) :
    (Sexp.allNodes (read ts).forms).length ≤ ts.length := by
  rw [← Sexp.length_walkAll_tallyPen, walkAll_read]
  exact length_outputs_tallyPen ts 0 0

theorem letDepthAll_read (ts : List Token) : Sexp.letDepthAll (read ts).forms ≤ maxDepth := by
  have hdepth := Sexp.letDepthAll_le_heightAll (read ts).forms
  have hheight := heightAll_read ts
  omega

/-! ## §5. Lets in values. -/

/-- The kinds of the tokens of `n` nested `let`s, each of them the value of the only
binding of the one around it, with a list of `m` names inside of all. -/
def nestedLets (m : Nat) : Nat → List Kind
  | 0 => .openParen :: (List.replicate m .identifier ++ [.closeParen])
  | n + 1 =>
    [.openParen, .localBinding, .openParen, .openParen, .identifier] ++ nestedLets m n
      ++ [.closeParen, .closeParen, .closeParen]

theorem length_nestedLets (m n : Nat) : (nestedLets m n).length = 8 * n + m + 2 := by
  induction n with
  | zero => simp [nestedLets]
  | succ n ih =>
      simp only [nestedLets, List.length_append, List.length_cons, List.length_nil, ih]
      omega

/-- Whether an expression is `n` nested `let`s with a list of `m` atoms inside. -/
inductive IsNest (m : Nat) : Nat → Sexp → Prop where
  | inside (o : Outline) (as : List Atom) (hm : as.length = m) :
      IsNest m 0 (.list o .plain (as.map Sexp.atom))
  | binding {n : Nat} {e : Sexp} (o o' o'' : Outline) (a name : Atom) (h : IsNest m n e) :
      IsNest m (n + 1) (.list o .locals
        [.atom a, .list o' .plain [.list o'' .plain [.atom name, e]]])

namespace IsNest

variable {m n : Nat} {e : Sexp}

/-- Each `let` adds five expressions of its own, and doubles what it binds. -/
theorem size_eq (h : IsNest m n e) : e.size + 5 = 2 ^ n * (m + 6) := by
  induction h with
  | inside o as hm =>
      have has : Sexp.sizeAll (as.map Sexp.atom) = m := by
        subst hm
        induction as with
        | nil => rfl
        | cons a as ih =>
            rw [List.map_cons, Sexp.sizeAll_cons, Sexp.size_atom, ih, List.length_cons,
              Nat.add_comm]
      rw [Sexp.size_list, Sexp.kept_of_bindingList?_none rfl, has, Sexp.sizeAll_nil]
      omega
  | @binding n e o o' o'' a name h ih =>
      have hentry : (Sexp.list o'' .plain [.atom name, e]).size = e.size + 2 := by
        rw [Sexp.size_list, Sexp.kept_of_bindingList?_none rfl]
        simp only [Sexp.sizeAll_cons, Sexp.sizeAll_nil, Sexp.size_atom]
        omega
      have hentries : (Sexp.list o' .plain [.list o'' .plain [.atom name, e]]).size
          = e.size + 3 := by
        rw [Sexp.size_list, Sexp.kept_of_bindingList?_none rfl, Sexp.sizeAll_cons, hentry]
        rfl
      rw [Sexp.size_list, Sexp.sizeAll_cons, Sexp.sizeAll_cons, hentries, Sexp.size_atom]
      show 1 + (e.size + 3 + 0) + (e.size + 0) + 1 + 5 = _
      rw [Nat.pow_succ, Nat.mul_right_comm]
      omega

theorem letDepth_eq (h : IsNest m n e) : e.letDepth = n := by
  induction h with
  | inside o as hm =>
      have has : Sexp.letDepthAll (as.map Sexp.atom) ≤ 0 := by
        refine greatest_le_iff.2 ?_
        simp
      rw [Sexp.letDepth_list, Nat.le_zero.1 has]
      rfl
  | @binding n e o o' o'' a name h ih =>
      have hentry : (Sexp.list o'' .plain [.atom name, e]).letDepth = n := by
        rw [Sexp.letDepth_list]
        simp [Sexp.letDepthAll, greatest, Sexp.bindingList?, ih]
      have hentries : (Sexp.list o' .plain [.list o'' .plain [.atom name, e]]).letDepth = n := by
        rw [Sexp.letDepth_list]
        simp [Sexp.letDepthAll, greatest, Sexp.bindingList?, hentry]
      rw [Sexp.letDepth_list]
      simp [Sexp.letDepthAll, greatest, Sexp.bindingList?, hentries]

end IsNest

/-- Whether tokens that are code inside `d` lists are read as one expression such as
`P` says. -/
def ReadsAsCode (d : Nat) (ts : List Token) (P : Sexp → Prop) : Prop :=
  ∀ r : Reading, r.flat = none → r.next = .none → r.stack.length = d →
    ∃ e, Value.SameForms (r.pushAll ts) (r.add e) ∧ P e

/-- Whether tokens that are code inside a list inside `d` others are read as elements
such as `P` says. -/
def ReadsAsElements (d : Nat) (ts : List Token) (P : List Sexp → Prop) : Prop :=
  ∀ fs l ls es r, l.taint = .none → ls.length = d → Value.InList fs l ls es r →
    r.next = .none →
      ∃ new, Value.InList fs l ls (new.reverse ++ es) (r.pushAll ts)
        ∧ (r.pushAll ts).next = .none ∧ P new

section

variable {d : Nat} {t c : Token} {ts ts' : List Token}

theorem readsAsCode_atom (hk : t.kind.isAtomic = true) :
    ReadsAsCode d [t] fun e => ∃ a : Atom, e = .atom a ∧ a.token = t := by
  intro r hflat hnext _
  refine ⟨_, ?_, ⟨t, r.classes.size, r.next⟩, rfl, rfl⟩
  rw [Reading.pushAll_cons, Reading.pushAll_nil, Reading.push_atomic hk hflat]
  exact Value.sameForms_classed _ _ _ _

theorem readsAsElements_nil : ReadsAsElements d [] fun es => es = [] :=
  fun _ _ _ _ _ _ _ hin hnext => ⟨[], hin, hnext, rfl⟩

theorem readsAsElements_cons {P : Sexp → Prop} {Q : List Sexp → Prop}
    (h : ReadsAsCode (d + 1) ts P) (h' : ReadsAsElements d ts' Q) :
    ReadsAsElements d (ts ++ ts') fun es => ∃ e es', es = e :: es' ∧ P e ∧ Q es' := by
  intro fs l ls es r hl hd hin hnext
  obtain ⟨e, hsame, he⟩ := h r hin.2.1 hnext (by rw [hin.2.2, List.length_cons, hd])
  have hin' := Value.inList_of_sameForms hin hsame
  have hnext' : (r.pushAll ts).next = .none := by
    rw [hsame.2.2.2, next_add, hin.2.2]
    exact hl
  obtain ⟨new, hin'', hnext'', hnew⟩ := h' fs l ls (e :: es) _ hl hd hin' hnext'
  rw [← Reading.pushAll_append] at hin'' hnext''
  refine ⟨e :: new, ?_, hnext'', e, new, rfl, he, hnew⟩
  rw [List.reverse_cons, List.append_assoc]
  exact hin''

theorem readsAsCode_list {Q : List Sexp → Prop} (hd : d < maxDepth)
    (ht : t.kind = .openParen) (h : ReadsAsElements d ts Q) (hc : c.kind = .closeParen) :
    ReadsAsCode d (t :: ts ++ [c]) fun e =>
      ∃ o es, e = .list o (Recognition.ofList .none es).role es ∧ Q es := by
  intro r hflat hnext hlen
  let l : OpenList := ⟨t.start, r.classes.size, r.next, []⟩
  have hopen : (r.push t) = { r.classed .openParen r.next with stack := l :: r.stack } := by
    rw [Reading.push_openParen ht hflat]
    exact if_pos (hlen ▸ hd)
  have hin : Value.InList r.forms l r.stack [] (r.push t) := by
    rw [hopen]
    exact ⟨rfl, hflat, rfl⟩
  obtain ⟨new, hin', -, hnew⟩ := h _ l _ _ _ hnext hlen hin (by rw [hopen]; exact hnext)
  rw [List.append_nil] at hin'
  have hclose := Value.inList_close hin' hflat hc
  rw [List.reverse_reverse, show l.taint = .none from hnext] at hclose
  refine ⟨_, ?_, ⟨l.start, c.stop, true, .none⟩, new, rfl, hnew⟩
  rw [List.cons_append, Reading.pushAll_cons, Reading.pushAll_append, Reading.pushAll_cons,
    Reading.pushAll_nil]
  exact hclose

theorem ReadsAsCode.mono {P Q : Sexp → Prop} (h : ReadsAsCode d ts P) (hPQ : ∀ e, P e → Q e) :
    ReadsAsCode d ts Q := by
  intro r hflat hnext hlen
  obtain ⟨e, hsame, he⟩ := h r hflat hnext hlen
  exact ⟨e, hsame, hPQ e he⟩

theorem role_of_identifier {a : Atom} {es : List Sexp} (ha : a.kind = .identifier) :
    (Recognition.ofList .none (.atom a :: es)).role = .plain := by
  show (Recognition.ofHead a _).role = .plain
  rw [Recognition.ofHead, ha]
  rfl

theorem role_of_localBinding {a : Atom} {o : Outline} {role : Role} {entries es : List Sexp}
    (ha : a.kind = .localBinding) :
    (Recognition.ofList .none (.atom a :: .list o role entries :: es)).role = .locals := by
  show (Recognition.ofHead a _).role = .locals
  rw [Recognition.ofHead, ha]
  rfl

/-- Names inside a list are its elements. -/
theorem readsAsElements_names {m : Nat} : ∀ {ts : List Token},
    ts.map Token.kind = List.replicate m .identifier →
      ReadsAsElements d ts fun es => ∃ as : List Atom, es = as.map .atom ∧ as.length = m
        ∧ ∀ a ∈ as, a.kind = .identifier := by
  induction m with
  | zero =>
      intro ts hts
      obtain rfl := List.map_eq_nil_iff.1 hts
      intro fs l ls es r hl hd hin hnext
      exact ⟨[], hin, hnext, [], rfl, rfl, fun _ ha => nomatch ha⟩
  | succ m ih =>
      intro ts hts
      obtain ⟨t, ts, rfl, ht, hts⟩ := List.map_eq_cons_iff.1 hts
      intro fs l ls es r hl hd hin hnext
      have hatom : ReadsAsCode (d + 1) [t] _ := readsAsCode_atom (by rw [ht]; rfl)
      obtain ⟨new, hin', hnext', e, es', rfl, ⟨a, rfl, hat⟩, as, rfl, hlen, has⟩ :=
        readsAsElements_cons hatom (ih hts) fs l ls es r hl hd hin hnext
      refine ⟨_, hin', hnext', a :: as, rfl, by rw [List.length_cons, hlen], ?_⟩
      rw [List.forall_mem_cons]
      exact ⟨(congrArg Token.kind hat).trans ht, has⟩

/-- Nested `let`s are read as what they are, wherever there is room for their lists. -/
theorem readsAsCode_nestedLets {m n : Nat} : ∀ {d : Nat} {ts : List Token},
    d + 3 * n < maxDepth → ts.map Token.kind = nestedLets m n →
      ReadsAsCode d ts (IsNest m n) := by
  induction n with
  | zero =>
      intro d ts hd hts
      obtain ⟨t, ts, rfl, ht, hts⟩ := List.map_eq_cons_iff.1 hts
      obtain ⟨names, cs, rfl, hnames, hcs⟩ := List.map_eq_append_iff.1 hts
      obtain ⟨c, rfl, hc⟩ := List.map_eq_singleton_iff.1 hcs
      refine (readsAsCode_list hd ht (readsAsElements_names hnames) hc).mono ?_
      rintro e ⟨o, es, rfl, as, rfl, hm, has⟩
      have hrole : (Recognition.ofList .none (as.map Sexp.atom)).role = .plain := by
        cases as with
        | nil => rfl
        | cons a as => exact role_of_identifier (has a List.mem_cons_self)
      rw [hrole]
      exact .inside o as hm
  | succ n ih =>
      intro d ts hd hts
      rw [nestedLets, List.append_assoc] at hts
      obtain ⟨front, ts, rfl, hfront, hts⟩ := List.map_eq_append_iff.1 hts
      obtain ⟨inner, back, rfl, hinner, hback⟩ := List.map_eq_append_iff.1 hts
      obtain ⟨t₁, front, rfl, ht₁, hfront⟩ := List.map_eq_cons_iff.1 hfront
      obtain ⟨head, front, rfl, hhead, hfront⟩ := List.map_eq_cons_iff.1 hfront
      obtain ⟨t₂, front, rfl, ht₂, hfront⟩ := List.map_eq_cons_iff.1 hfront
      obtain ⟨t₃, front, rfl, ht₃, hfront⟩ := List.map_eq_cons_iff.1 hfront
      obtain ⟨name, rfl, hname⟩ := List.map_eq_singleton_iff.1 hfront
      obtain ⟨c₃, back, rfl, hc₃, hback⟩ := List.map_eq_cons_iff.1 hback
      obtain ⟨c₂, back, rfl, hc₂, hback⟩ := List.map_eq_cons_iff.1 hback
      obtain ⟨c₁, rfl, hc₁⟩ := List.map_eq_singleton_iff.1 hback
      -- from the inside to the outside: the entry, the binding list, the `let`
      have hname' : ReadsAsCode (d + 3) [name] _ := readsAsCode_atom (by rw [hname]; rfl)
      have hhead' : ReadsAsCode (d + 1) [head] _ := readsAsCode_atom (by rw [hhead]; rfl)
      have hentry := readsAsCode_list (by omega) ht₃
        (readsAsElements_cons hname' (readsAsElements_cons (ih (by omega) hinner)
          readsAsElements_nil)) hc₃
      have hentries := readsAsCode_list (by omega) ht₂
        (readsAsElements_cons hentry readsAsElements_nil) hc₂
      have hlet := readsAsCode_list (by omega) ht₁
        (readsAsElements_cons hhead' (readsAsElements_cons hentries readsAsElements_nil)) hc₁
      have hts : [t₁, head, t₂, t₃, name] ++ (inner ++ [c₃, c₂, c₁])
          = t₁ :: ([head] ++ ((t₂ :: ((t₃ :: ([name] ++ (inner ++ [])) ++ [c₃]) ++ []) ++ [c₂])
              ++ [])) ++ [c₁] := by simp
      rw [hts]
      refine hlet.mono ?_
      rintro e ⟨o, _, rfl, _, _, rfl, ⟨a, rfl, ha⟩, _, _, rfl, ⟨o', _, rfl, _, _, rfl,
        ⟨o'', _, rfl, _, _, rfl, ⟨a', rfl, ha'⟩, e, _, rfl, he, rfl⟩, rfl⟩, rfl⟩
      have hlocals : a.kind = .localBinding := (congrArg Token.kind ha).trans hhead
      have hnaming : a'.kind = .identifier := (congrArg Token.kind ha').trans hname
      rw [role_of_localBinding hlocals, role_of_identifier hnaming]
      exact .binding o o' o'' a a' he

end

/-- Nested `let`s are a text of their own. -/
theorem isNest_read {m n : Nat} {ts : List Token} (hn : 3 * n < maxDepth)
    (hts : ts.map Token.kind = nestedLets m n) :
    ∃ e, (read ts).forms = [e] ∧ IsNest m n e := by
  have hroom : 0 + 3 * n < maxDepth := by omega
  obtain ⟨e, ⟨hforms, hstack, hflat, _⟩, he⟩ :=
    readsAsCode_nestedLets hroom hts .begin rfl rfl rfl
  refine ⟨e, ?_, he⟩
  have hflat' : (Reading.begin.pushAll ts).flat = none := hflat
  have hstack' : (Reading.begin.pushAll ts).stack = [] := hstack
  show (((Reading.begin.pushAll ts).closeAll _).forms).reverse = [e]
  rw [Reading.closeAll, hflat']
  simp only [hstack', List.foldl_nil]
  rw [hforms]
  rfl

/-! ## §6. How large a tree becomes. -/

/-- **What is read of a text grows with its tokens, and doubles with its lets.**  There
are no more expressions than tokens.  With the values that bindings keep there are at
most `2 ^ d` times as many, where `d` is the greatest number of `let`s that have an
expression in their binding lists; it is no more than the cap on nesting.  So a factor
of 8 does for three `let`s.

A factor less than `2 ^ d` does not: as far as their lists are read as trees, `n` nested
`let`s around `m` names have `8 · n + m + 2` tokens and `2 ^ n · (m + 6) - 5`
expressions. -/
theorem read_doubles_with_lets :
    (∀ ts : List Token,
      let fs := (read ts).forms
      (Sexp.allNodes fs).length ≤ ts.length
        ∧ Sexp.sizeAll fs ≤ 2 ^ Sexp.letDepthAll fs * ts.length
        ∧ Sexp.letDepthAll fs ≤ maxDepth
        ∧ (Sexp.letDepthAll fs ≤ 3 → Sexp.sizeAll fs ≤ 8 * ts.length))
      ∧ ∀ (m n : Nat) (ts : List Token), 3 * n < maxDepth →
          ts.map Token.kind = nestedLets m n →
            ts.length = 8 * n + m + 2
              ∧ Sexp.letDepthAll (read ts).forms = n
              ∧ Sexp.sizeAll (read ts).forms + 5 = 2 ^ n * (m + 6) := by
  refine ⟨fun ts => ?_, fun m n ts hn hts => ?_⟩
  · have hsize : Sexp.sizeAll (read ts).forms
        ≤ 2 ^ Sexp.letDepthAll (read ts).forms * ts.length :=
      Nat.le_trans (Sexp.sizeAll_le _) (Nat.mul_le_mul_left _ (length_allNodes_read ts))
    refine ⟨length_allNodes_read ts, hsize, letDepthAll_read ts, fun hdepth => ?_⟩
    have hpow : 2 ^ Sexp.letDepthAll (read ts).forms ≤ 2 ^ 3 :=
      Nat.pow_le_pow_right (by decide) hdepth
    exact Nat.le_trans hsize (Nat.mul_le_mul_right _ hpow)
  · obtain ⟨e, hforms, he⟩ := isNest_read hn hts
    have hlen : (ts.map Token.kind).length = (nestedLets m n).length := by rw [hts]
    rw [List.length_map, length_nestedLets] at hlen
    have hdepth : Sexp.letDepthAll (read ts).forms = n := by
      rw [hforms]
      exact (Nat.max_zero _).trans he.letDepth_eq
    have hsize : Sexp.sizeAll (read ts).forms + 5 = 2 ^ n * (m + 6) := by
      rw [hforms]
      exact he.size_eq
    exact ⟨hlen, hdepth, hsize⟩

/-- Three nested `let`s with nothing inside: 26 tokens and 43 expressions. -/
theorem read_doubles_with_lets_three :
    let text := "(let((x(let((x(let((x())))))))))"
    let ts := tokenize text
    3 * 3 < maxDepth ∧ ts.map Token.kind = nestedLets 0 3
      ∧ Sexp.letDepthAll (read ts).forms ≤ 3 ∧ ts.length = 26
      ∧ Sexp.sizeAll (read ts).forms = 43 := by
  intro text ts
  have hkinds : ts.map Token.kind = nestedLets 0 3 := by decide
  obtain ⟨hlength, hdepth, hsize⟩ := read_doubles_with_lets.2 0 3 ts (by decide) hkinds
  exact ⟨by decide, hkinds, Nat.le_of_eq hdepth, hlength, by omega⟩

/-- A factor of 8 is not enough for seven nested `let`s: 58 tokens and 763
expressions. -/
theorem seven_lets_exceed_eight :
    let text := "(let((x(let((x(let((x(let((x(let((x(let((x(let((x())))))))))))))))))))))"
    let ts := tokenize text
    ¬ Sexp.sizeAll (read ts).forms ≤ 8 * ts.length := by
  intro text ts
  have hkinds : ts.map Token.kind = nestedLets 0 7 := by decide
  obtain ⟨e, hforms, he⟩ := isNest_read (by decide) hkinds
  have hlength : ts.length = 58 := by decide
  have hsize : Sexp.sizeAll (read ts).forms + 5 = 2 ^ 7 * (0 + 6) := by
    rw [hforms]
    exact he.size_eq
  omega

end LispLink.Source
