/-
  LispLink.Proofs.Source.Trivia
  ────────────────────────────────
  **TRIVIA IS NOT READ.**

  White space and comments, closed or not, stand between the other tokens and do
  nothing to them.  Without them every token has a smaller index (`placeIn` leads
  back), and a text whose last lists are not closed may end at another place:

      read ts  =  read (ts without trivia), relocated
-/
import LispLink.Proofs.Source.Replay

namespace LispLink.Source

/-- The tokens that are no trivia. -/
def withoutTrivia (ts : List Token) : List Token := ts.filter fun t => !t.kind.isTrivia

/-- The index of a token among all tokens, from its index among those that are no
trivia. -/
def placeIn : List Token → Nat → Nat
  | [], i => i
  | t :: ts, i =>
    if t.kind.isTrivia then placeIn ts i + 1
    else match i with
      | 0 => 0
      | i + 1 => placeIn ts i + 1

section

variable {t : Token} {ts : List Token}

theorem withoutTrivia_trivia (hk : t.kind.isTrivia = true) :
    withoutTrivia (t :: ts) = withoutTrivia ts :=
  List.filter_cons_of_neg (by simp [hk])

theorem withoutTrivia_token (hk : ¬ t.kind.isTrivia = true) :
    withoutTrivia (t :: ts) = t :: withoutTrivia ts :=
  List.filter_cons_of_pos (by simp [hk])

theorem placeIn_trivia (hk : t.kind.isTrivia = true) (i : Nat) :
    placeIn (t :: ts) i = placeIn ts i + 1 := if_pos hk

theorem placeIn_zero (hk : ¬ t.kind.isTrivia = true) : placeIn (t :: ts) 0 = 0 := if_neg hk

theorem placeIn_succ (hk : ¬ t.kind.isTrivia = true) (i : Nat) :
    placeIn (t :: ts) (i + 1) = placeIn ts i + 1 := if_neg hk

end

/-- **The order of tokens is the same.** -/
theorem placeIn_lt (ts : List Token) {i j : Nat} (h : i < j) : placeIn ts i < placeIn ts j := by
  induction ts generalizing i j with
  | nil => exact h
  | cons t ts ih =>
      by_cases hk : t.kind.isTrivia = true
      · rw [placeIn_trivia hk, placeIn_trivia hk]
        exact Nat.succ_lt_succ (ih h)
      · obtain ⟨j, rfl⟩ := Nat.exists_eq_add_one_of_ne_zero (Nat.ne_of_gt (Nat.zero_lt_of_lt h))
        rw [placeIn_succ hk]
        cases i with
        | zero =>
            rw [placeIn_zero hk]
            exact Nat.succ_pos _
        | succ i =>
            rw [placeIn_succ hk]
            exact Nat.succ_lt_succ (ih (Nat.lt_of_succ_lt_succ h))

theorem placeIn_injective (ts : List Token) (i j : Nat) (h : placeIn ts i = placeIn ts j) :
    i = j := by
  rcases Nat.lt_trichotomy i j with hlt | heq | hlt
  · exact absurd h (Nat.ne_of_lt (placeIn_lt ts hlt))
  · exact heq
  · exact absurd h (Nat.ne_of_gt (placeIn_lt ts hlt))

/-- Every token is where it should be. -/
theorem getElem?_placeIn (ts : List Token) (i : Nat) :
    ts[placeIn ts i]? = (withoutTrivia ts)[i]? := by
  induction ts generalizing i with
  | nil => rfl
  | cons t ts ih =>
      by_cases hk : t.kind.isTrivia = true
      · rw [placeIn_trivia hk, withoutTrivia_trivia hk, List.getElem?_cons_succ, ih]
      · rw [withoutTrivia_token hk]
        cases i with
        | zero => rw [placeIn_zero hk, List.getElem?_cons_zero, List.getElem?_cons_zero]
        | succ i => rw [placeIn_succ hk, List.getElem?_cons_succ, List.getElem?_cons_succ, ih]

/-- Where tokens are with trivia between them: they have other indices, and lists
that are not closed stop where all the tokens do. -/
def withTrivia (ts : List Token) : Relocation :=
  ⟨placeIn ts, id, id, fun _ => stopOf ts, placeIn_injective ts⟩

theorem spreads_withoutTrivia {m : Relocation} (hm : ∀ t, Token.relocated m t = t)
    (ts : List Token) {i j : Nat} (h : ∀ k, m.index (i + k) = j + placeIn ts k) :
    m.Spreads i j (withoutTrivia ts) ts := by
  -- trivia takes an index there, any other token takes one on both sides
  induction ts generalizing i j with
  | nil => exact .nil i j
  | cons t ts ih =>
      by_cases hk : t.kind.isTrivia = true
      · rw [withoutTrivia_trivia hk]
        refine .trivia hk (ih fun k => ?_)
        rw [h k, placeIn_trivia hk]
        omega
      · have hi : m.index i = j := by
          have hzero := h 0
          rw [placeIn_zero hk] at hzero
          exact hzero
        have hbehind : m.Spreads (i + 1) (j + 1) (withoutTrivia ts) ts := ih fun k => by
          rw [Nat.add_right_comm, Nat.add_assoc i, h (k + 1), placeIn_succ hk]
          omega
        have hspreads := Relocation.Spreads.token (t := t) hi hbehind
        rw [hm t] at hspreads
        rw [withoutTrivia_token hk]
        exact hspreads

/-- **Reading passes over trivia**: without it the forms are the same but for
indices and for where lists stop that are not closed, and so are the classes of
the tokens that are left. -/
theorem read_withoutTrivia (ts : List Token) :
    (read ts).forms = (read (withoutTrivia ts)).forms.map (Sexp.relocated (withTrivia ts))
      ∧ ∀ i < (withoutTrivia ts).length,
        (read ts).classes[placeIn ts i]? = (read (withoutTrivia ts)).classes[i]? :=
  read_relocated (m := withTrivia ts)
    (spreads_withoutTrivia (fun _ => rfl) ts fun k => by rw [Nat.zero_add, Nat.zero_add]; rfl) rfl

end LispLink.Source
