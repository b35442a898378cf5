/-
  LispLink.Proofs.Source.Composition
  ────────────────────────────────
  **TOP LEVEL FORMS ARE READ ONE BY ONE.**

  If tokens leave no list open and do not end in a prefix operator, then a reading
  behind them is as it was at the start, but for the forms and the classes it has.
  What comes next is read as if it stood alone:

      read (a ++ b)  =  read a  ++  read b, the indices behind those of a
-/
import LispLink.Proofs.Source.Spans
import LispLink.Proofs.Source.Trivia

namespace LispLink.Source

/-! ## §1. Nothing left over. -/

/-- Trivia does not change what the last other token is. -/
theorem withoutTrivia_concat (ts : List Token) (t : Token) :
    withoutTrivia (ts ++ [t])
      = if t.kind.isTrivia then withoutTrivia ts else withoutTrivia ts ++ [t] := by
  rw [withoutTrivia, List.filter_append]
  cases hk : t.kind.isTrivia
  · rw [List.filter_cons_of_pos (by simp [hk])]
    rfl
  · rw [List.filter_cons_of_neg (by simp [hk])]
    exact List.append_nil _

/-- **A taint is changed by prefix operators only**: if what leads to a place does not
end in one, trivia apart, the taint there is as it was. -/
theorem Lead.eq_of_last {ts : List Token} {us : List Taint} {i j : Nat} {t u : Taint}
    (h : Lead ts us i t j u)
    (hlast : ∀ x ∈ (withoutTrivia (ts.take j)).getLast?, x.kind.isOperator = false) :
    u = t := by
  -- back from the place: trivia changes nothing, and an operator would be the last token
  induction h with
  | start => rfl
  | @trivia j _ x _ hx hk ih =>
      refine ih fun y hy => hlast y ?_
      rw [List.take_add_one, hx.1]
      show (withoutTrivia (ts.take j ++ [x])).getLast? = some y
      rw [withoutTrivia_concat, if_pos hk]
      exact hy
  | @operator j _ x _ hx hk =>
      have htrivia : ¬ x.kind.isTrivia = true := by
        rcases Kind.isOperator_iff.1 hk with hk | hk | hk <;> rw [hk] <;> decide
      have hx' := hlast x (by
        rw [List.take_add_one, hx.1]
        show (withoutTrivia (ts.take j ++ [x])).getLast? = some x
        rw [withoutTrivia_concat, if_neg htrivia]
        exact List.getLast?_concat)
      rw [hk] at hx'
      cases hx'

namespace Reading

/-- Whether a form is a list that is not closed. -/
def HasUnclosed (r : Reading) : Prop :=
  ∃ e ∈ r.forms, ∃ o ∈ e.outline?, o.closed = false

/-- A list that is not closed gets into the list around it, or it is a form. -/
theorem add_unclosed (r : Reading) (o : Outline) (ho : o.closed = false) (role : Role)
    (es : List Sexp) :
    (r.add (.list o role es)).stack ≠ [] ∨ (r.add (.list o role es)).HasUnclosed := by
  unfold add
  cases r.stack with
  | nil => exact .inr ⟨_, List.mem_cons_self, o, rfl, ho⟩
  | cons l ls => exact .inl (List.cons_ne_nil _ _)

/-- **Lists that are open at the end of a text leave a form that is not closed.** -/
theorem closed_of_forms {r : Reading} (hcapped : r.IsCapped) (stop : Position)
    (hforms : ¬ (r.closeAll stop).HasUnclosed) : r.stack = [] ∧ r.flat = none := by
  by_contra hopen
  -- a list that is read flat is inside others
  have hstack : r.stack ≠ [] := by
    intro hs
    refine hopen ⟨hs, ?_⟩
    cases hf : r.flat with
    | none => rfl
    | some f =>
        have hfull := hcapped.flat_at f hf
        rw [hs] at hfull
        cases hfull
  -- until the last list is closed some list is open, and that one becomes a form
  obtain ⟨hP, hnil, _⟩ := closeAll_induction
    (P := fun r => r.stack ≠ [] ∨ r.HasUnclosed) stop
    (fun f _ => add_unclosed { r with flat := none } _ rfl _ _)
    (fun _ => .inl hstack) (fun r l ls _ hs _ => by
      unfold close
      rw [hs]
      exact add_unclosed _ _ rfl _ _)
  exact hP.elim (fun hne => hne hnil) hforms

theorem closeAll_of_closed {r : Reading} (hs : r.stack = []) (hf : r.flat = none)
    (stop : Position) : r.closeAll stop = r := by
  unfold closeAll
  rw [hf]
  show r.stack.foldl _ r = r
  rw [hs]
  rfl

end Reading

/-- Behind such tokens nothing is in progress. -/
theorem nothing_in_progress {ts : List Token}
    (hclosed : ∀ e ∈ (read ts).forms, ∀ o ∈ e.outline?, o.closed = true)
    (hlast : ∀ t ∈ (withoutTrivia ts).getLast?, t.kind.isOperator = false) :
    (Reading.begin.pushAll ts).stack = [] ∧ (Reading.begin.pushAll ts).flat = none
      ∧ (Reading.begin.pushAll ts).next = .none := by
  have hcapped := (Reading.depth_pushAll Reading.isCapped_begin ts).1
  have hforms : ¬ ((Reading.begin.pushAll ts).closeAll (stopOf ts)).HasUnclosed := by
    rintro ⟨e, he, o, ho, hopen⟩
    have hc := hclosed e (List.mem_reverse.2 he) o ho
    rw [hopen] at hc
    cases hc
  obtain ⟨hs, hf⟩ := Reading.closed_of_forms hcapped (stopOf ts) hforms
  refine ⟨hs, hf, ?_⟩
  have hlaid : IsLaidOut ts _ (Reading.begin.pushAll ts) := laidOut_pushAll List.prefix_rfl
  obtain ⟨j, _, hlead⟩ := hlaid.tree hf
  rw [hs, Reading.size_classes_pushAll] at hlead
  refine hlead.eq_of_last fun x hx => hlast x ?_
  rw [List.take_length] at hx
  exact hx

/-! ## §2. One text behind another. -/

/-- Tokens with `n` others in front of them. -/
def Relocation.shift (n : Nat) : Relocation :=
  ⟨fun i => n + i, id, id, id, fun _ _ => Nat.add_left_cancel⟩

theorem stopOf_append {bs : List Token} (as : List Token) (hb : bs ≠ []) :
    stopOf (as ++ bs) = stopOf bs := by
  rw [stopOf, stopOf, List.getLast?_append, List.getLast?_eq_some_getLast hb, Option.some_or]

/-- With nothing in progress a text is read as if it stood alone. -/
theorem follows_shift {as : List Token} (hs : (Reading.begin.pushAll as).stack = [])
    (hf : (Reading.begin.pushAll as).flat = none)
    (hn : (Reading.begin.pushAll as).next = .none) (bs : List Token) :
    Reading.Follows (.shift as.length) (Reading.begin.pushAll as) (Reading.begin.pushAll bs)
      (Reading.begin.pushAll (as ++ bs)) := by
  have hspreads : (Relocation.shift as.length).Spreads 0 as.length bs bs := by
    have h := Relocation.spreads_map (m := .shift as.length) (i := 0) (j := as.length) bs
      fun k => by rw [Nat.zero_add]; rfl
    rw [show Token.relocated (.shift as.length) = id from rfl, List.map_id] at h
    exact h
  rw [Reading.pushAll_append]
  refine (Reading.Follows.begin hs hf hn fun i => ?_).pushAll ?_
  · rw [Reading.size_classes_pushAll]
    exact Nat.le_add_right _ _
  · rw [Reading.size_classes_pushAll]
    exact hspreads

/-- **Reading composes at the top level.**  If no form of `as` is a list that is not
closed, and the last token of `as` that is no trivia is no prefix operator, then
the tokens of `bs` behind it are read as they are read alone: the forms and the
classes of both come one behind the other, and nothing that was read of `as`
changes. -/
theorem read_append (as bs : List Token)
    (hclosed : ∀ e ∈ (read as).forms, ∀ o ∈ e.outline?, o.closed = true)
    (hlast : ∀ t ∈ (withoutTrivia as).getLast?, t.kind.isOperator = false) :
    (read (as ++ bs)).forms
        = (read as).forms ++ (read bs).forms.map (Sexp.relocated (.shift as.length))
      ∧ (read (as ++ bs)).classes = (read as).classes ++ (read bs).classes := by
  obtain ⟨hs, hf, hn⟩ := nothing_in_progress hclosed hlast
  have hread : read as = ⟨(Reading.begin.pushAll as).forms.reverse,
      (Reading.begin.pushAll as).classes.toList⟩ := by
    rw [read, Reading.finish, Reading.closeAll_of_closed hs hf]
  by_cases hb : bs = []
  · subst hb
    rw [List.append_nil]
    exact ⟨(List.append_nil _).symm, (List.append_nil _).symm⟩
  have hfollows := follows_shift hs hf hn bs
  have happend : read (as ++ bs) = (Reading.begin.pushAll (as ++ bs)).finish (stopOf bs) := by
    rw [read, stopOf_append as hb]
  refine ⟨?_, List.ext_getElem? fun k => ?_⟩
  · rw [happend, hread]
    exact hfollows.forms_finish (stopOf bs)
  obtain ⟨hkept, hmoved⟩ := hfollows.classes_finish (stopOf bs)
  have hlength := length_classes_read as
  rcases Nat.lt_or_ge k as.length with hk | hk
  · rw [List.getElem?_append_left (hlength.symm ▸ hk), happend, hread]
    refine (hkept k ?_).trans Array.getElem?_toList.symm
    rw [Reading.size_classes_pushAll]
    exact hk
  · obtain ⟨i, rfl⟩ := Nat.exists_eq_add_of_le hk
    rw [List.getElem?_append_right (hlength.symm ▸ hk), hlength, Nat.add_sub_cancel_left]
    by_cases hi : i < (read bs).classes.length
    · rw [happend]
      exact hmoved i hi
    · -- behind the last token there is no class on either side
      rw [List.getElem?_eq_none (Nat.not_lt.1 hi), List.getElem?_eq_none]
      rw [length_classes_read, List.length_append, ← length_classes_read bs]
      omega

/-- A list, a quoted name and a comment, and behind them a definition. -/
theorem read_append_definition :
    let as := tokenize "(a (b)) 'c ; d\n"
    let bs := tokenize "(defun f (x) x)"
    (∀ e ∈ (read as).forms, ∀ o ∈ e.outline?, o.closed = true)
      ∧ (∀ t ∈ (withoutTrivia as).getLast?, t.kind.isOperator = false)
      ∧ (read (as ++ bs)).classes = (read as).classes ++ (read bs).classes := by
  intro as bs
  have hclosed : ∀ e ∈ (read as).forms, ∀ o ∈ e.outline?, o.closed = true := by decide
  have hlast : ∀ t ∈ (withoutTrivia as).getLast?, t.kind.isOperator = false := by decide
  exact ⟨hclosed, hlast, (read_append as bs hclosed hlast).2⟩

end LispLink.Source
