/-
  LispLink.Proofs.Source.Steps
  ────────────────────────────────
  **WHAT ONE TOKEN DOES TO A READING.**

  For the pass over a token list there are five kinds of token: trivia, the two
  parens, the prefix operators, and all the others, which become atoms.  Here is
  the step for each, outside and inside a list that is read flat; whatever is
  proved about a reading is proved from these.
-/
import LispLink.Source.Reading

namespace LispLink.Source

/-! ## §1. Tokens that become atoms. -/

namespace Kind

/-- Kinds of tokens that are atoms wherever they stand. -/
def isAtomic : Kind → Bool
  | openParen | closeParen | quote | backquote | comma => false
  | k => !k.isTrivia

theorem not_isTrivia_of_isAtomic {k : Kind} (h : k.isAtomic = true) : ¬ k.isTrivia = true := by
  cases k <;> first | exact Bool.false_ne_true | exact absurd h Bool.false_ne_true

/-- The prefix operators. -/
def isOperator : Kind → Bool
  | quote | backquote | comma => true
  | _ => false

def isParen : Kind → Bool
  | openParen | closeParen => true
  | _ => false

theorem isOperator_iff {k : Kind} :
    k.isOperator = true ↔ k = quote ∨ k = backquote ∨ k = comma := by
  cases k <;> decide

theorem isParen_iff {k : Kind} : k.isParen = true ↔ k = openParen ∨ k = closeParen := by
  cases k <;> decide

/-- **There are five kinds of token.** -/
theorem cases (k : Kind) :
    k.isTrivia = true ∨ k.isOperator = true ∨ k.isAtomic = true ∨ k = openParen
      ∨ k = closeParen := by
  cases k <;> decide

theorem isParen_of_isTrivia {k : Kind} (h : k.isTrivia = true) : k.isParen = false := by
  revert h
  cases k <;> decide

theorem isParen_of_isOperator {k : Kind} (h : k.isOperator = true) : k.isParen = false := by
  revert h
  cases k <;> decide

theorem isParen_of_isAtomic {k : Kind} (h : k.isAtomic = true) : k.isParen = false := by
  revert h
  cases k <;> decide

/-- The kinds that a word may have. -/
def wordKinds : List Kind :=
  [.identifier, .symbol, .control, .standardMacro, .specialOperator, .variableDefiner,
   .lambdaListMarker, .functionDefiner, .packageDefiner, .inPackage, .conditionDefiner,
   .classDefiner, .macroDefiner, .methodDefiner, .loop, .localBinding]

theorem entries_kinds : ∀ e ∈ Vocabulary.entries, e.2 ∈ wordKinds := by decide

theorem ofWord_mem_wordKinds (word : String) : ofWord word ∈ wordKinds := by
  unfold ofWord
  split
  · decide
  · cases h : Vocabulary.entries.lookup (Text.upper word) with
    | none => decide
    | some k =>
        obtain ⟨before, after, hsplit, _⟩ := List.lookup_eq_some_iff.1 h
        have hmem : (Text.upper word, k) ∈ Vocabulary.entries := by
          rw [hsplit]
          exact List.mem_append_right _ List.mem_cons_self
        exact entries_kinds _ hmem

theorem isAtomic_of_mem_wordKinds : ∀ k ∈ wordKinds, k.isAtomic = true := by decide

theorem isAtomic_ofWord (word : String) : (ofWord word).isAtomic = true :=
  isAtomic_of_mem_wordKinds _ (ofWord_mem_wordKinds word)

end Kind

/-! ## §2. The steps. -/

namespace Reading

variable {r : Reading} {t : Token}

theorem push_trivia (hk : t.kind.isTrivia = true) : r.push t = r.classed t.kind .none := by
  simp only [push, hk, if_true]

/-- A token of an atomic kind is the next expression. -/
theorem push_atomic (hk : t.kind.isAtomic = true) (hf : r.flat = none) :
    r.push t = (r.classed t.kind r.next).add (.atom ⟨t, r.classes.size, r.next⟩) := by
  have hpush : r.push t = r.pushTree t := by
    rw [push, if_neg (Kind.not_isTrivia_of_isAtomic hk), hf]
  rw [hpush, pushTree]
  -- the other cases are those of the parens and the prefix operators
  split
  case h_6 => rfl
  all_goals
    rename_i h
    rw [h] at hk
    cases hk

/-- Inside a flat list it is one more element of that list. -/
theorem push_atomic_flat {f : FlatList} (hk : t.kind.isAtomic = true) (hf : r.flat = some f) :
    r.push t = { r.classed t.kind f.taint with
      flat := some { f with elements := .atom ⟨t, r.classes.size, f.taint⟩ :: f.elements } } := by
  have hpush : r.push t = r.pushFlat f t := by
    rw [push, if_neg (Kind.not_isTrivia_of_isAtomic hk), hf]
  rw [hpush, pushFlat]
  -- inside a flat list only the parens are read as anything else
  split
  case h_3 => rfl
  all_goals
    rename_i h
    rw [h] at hk
    cases hk

theorem push_openParen (hk : t.kind = .openParen) (hf : r.flat = none) :
    r.push t = (r.classed .openParen r.next).openList t.start r.classes.size := by
  simp [push, hk, Kind.isTrivia, hf, pushTree]

theorem push_openParen_flat {f : FlatList} (hk : t.kind = .openParen) (hf : r.flat = some f) :
    r.push t = { r.classed .openParen f.taint with
      flat := some { f with inner := f.inner + 1 } } := by
  simp [push, hk, Kind.isTrivia, hf, pushFlat]

/-- A close paren with no list open is an expression of its own. -/
theorem push_closeParen_stray (hk : t.kind = .closeParen) (hf : r.flat = none)
    (hs : r.stack = []) :
    r.push t = (r.classed .strayParen .none).add (.atom ⟨t, r.classes.size, .none⟩) := by
  simp [push, hk, Kind.isTrivia, hf, pushTree, hs]

theorem push_closeParen {l : OpenList} {ls : List OpenList} (hk : t.kind = .closeParen)
    (hf : r.flat = none) (hs : r.stack = l :: ls) :
    r.push t = (r.classed .closeParen l.taint).close t.stop true := by
  simp [push, hk, Kind.isTrivia, hf, pushTree, hs]

theorem push_closeParen_flat {f : FlatList} (hk : t.kind = .closeParen) (hf : r.flat = some f)
    (hi : f.inner = 0) :
    r.push t = (r.classed .closeParen f.taint).closeFlat f t.stop true := by
  simp [push, hk, Kind.isTrivia, hf, pushFlat, hi]

theorem push_closeParen_inner {f : FlatList} {n : Nat} (hk : t.kind = .closeParen)
    (hf : r.flat = some f) (hi : f.inner = n + 1) :
    r.push t = { r.classed .closeParen f.taint with flat := some { f with inner := n } } := by
  simp [push, hk, Kind.isTrivia, hf, pushFlat, hi]

/-- A prefix operator changes the taint of the next expression. -/
theorem push_operator (hk : t.kind.isOperator = true) (hf : r.flat = none) :
    r.push t = { r.classed t.kind r.next with next := r.next.under t.kind } := by
  rcases Kind.isOperator_iff.1 hk with hk | hk | hk <;>
    simp [push, hk, Kind.isTrivia, hf, pushTree, classed]

/-- Inside a flat list it is one more element of that list. -/
theorem push_operator_flat {f : FlatList} (hk : t.kind.isOperator = true) (hf : r.flat = some f) :
    r.push t = { r.classed t.kind f.taint with
      flat := some { f with elements := .atom ⟨t, r.classes.size, f.taint⟩ :: f.elements } } := by
  rcases Kind.isOperator_iff.1 hk with hk | hk | hk <;>
    simp [push, hk, Kind.isTrivia, hf, pushFlat, classed]

end Reading

/-! ## §3. Every token is a step. -/

/-- What one token does to a reading. -/
inductive Step (r : Reading) (t : Token) : Reading → Prop where
  | trivia (hk : t.kind.isTrivia = true) : Step r t (r.classed t.kind .none)
  | operator (hk : t.kind.isOperator = true) (hf : r.flat = none) :
      Step r t { r.classed t.kind r.next with next := r.next.under t.kind }
  | atom (hk : t.kind.isAtomic = true) (hf : r.flat = none) :
      Step r t ((r.classed t.kind r.next).add (.atom ⟨t, r.classes.size, r.next⟩))
  | stray (hk : t.kind = .closeParen) (hf : r.flat = none) (hs : r.stack = []) :
      Step r t ((r.classed .strayParen .none).add (.atom ⟨t, r.classes.size, .none⟩))
  | opens (hk : t.kind = .openParen) (hf : r.flat = none) (hlen : r.stack.length < maxDepth) :
      Step r t { r.classed .openParen r.next with
        stack := ⟨t.start, r.classes.size, r.next, []⟩ :: r.stack }
  | closes (l : OpenList) (ls : List OpenList) (hk : t.kind = .closeParen) (hf : r.flat = none)
      (hs : r.stack = l :: ls) : Step r t ((r.classed .closeParen l.taint).close t.stop true)
  | opensFlat (hk : t.kind = .openParen) (hf : r.flat = none)
      (hlen : maxDepth ≤ r.stack.length) :
      Step r t { r.classed .openParen r.next with flat := some ⟨t.start, r.next, 0, []⟩ }
  | flatAtom (f : FlatList) (hk : t.kind.isAtomic = true ∨ t.kind.isOperator = true)
      (hf : r.flat = some f) :
      Step r t { r.classed t.kind f.taint with
        flat := some { f with elements := .atom ⟨t, r.classes.size, f.taint⟩ :: f.elements } }
  | opensInner (f : FlatList) (hk : t.kind = .openParen) (hf : r.flat = some f) :
      Step r t { r.classed .openParen f.taint with flat := some { f with inner := f.inner + 1 } }
  | closesInner (f : FlatList) (n : Nat) (hk : t.kind = .closeParen) (hf : r.flat = some f)
      (hi : f.inner = n + 1) :
      Step r t { r.classed .closeParen f.taint with flat := some { f with inner := n } }
  | closesFlat (f : FlatList) (hk : t.kind = .closeParen) (hf : r.flat = some f)
      (hi : f.inner = 0) : Step r t ((r.classed .closeParen f.taint).closeFlat f t.stop true)

/-- **Whatever the token, reading it is one of these steps.** -/
theorem Reading.step_push (r : Reading) (t : Token) : Step r t (r.push t) := by
  rcases t.kind.cases with hk | hk | hk | hk | hk
  · rw [push_trivia hk]
    exact .trivia hk
  · cases hf : r.flat with
    | none =>
        rw [push_operator hk hf]
        exact .operator hk hf
    | some f =>
        rw [push_operator_flat hk hf]
        exact .flatAtom f (.inr hk) hf
  · cases hf : r.flat with
    | none =>
        rw [push_atomic hk hf]
        exact .atom hk hf
    | some f =>
        rw [push_atomic_flat hk hf]
        exact .flatAtom f (.inl hk) hf
  · cases hf : r.flat with
    | none =>
        rw [push_openParen hk hf]
        by_cases hlen : r.stack.length < maxDepth
        · have hopen : (r.classed .openParen r.next).openList t.start r.classes.size
              = { r.classed .openParen r.next with
                  stack := ⟨t.start, r.classes.size, r.next, []⟩ :: r.stack } := if_pos hlen
          rw [hopen]
          exact .opens hk hf hlen
        · have hopen : (r.classed .openParen r.next).openList t.start r.classes.size
              = { r.classed .openParen r.next with
                  flat := some ⟨t.start, r.next, 0, []⟩ } := if_neg hlen
          rw [hopen]
          exact .opensFlat hk hf (Nat.le_of_not_lt hlen)
    | some f =>
        rw [push_openParen_flat hk hf]
        exact .opensInner f hk hf
  · cases hf : r.flat with
    | none =>
        cases hs : r.stack with
        | nil =>
            rw [push_closeParen_stray hk hf hs]
            exact .stray hk hf hs
        | cons l ls =>
            rw [push_closeParen hk hf hs]
            exact .closes l ls hk hf hs
    | some f =>
        cases hi : f.inner with
        | zero =>
            rw [push_closeParen_flat hk hf hi]
            exact .closesFlat f hk hf hi
        | succ n =>
            rw [push_closeParen_inner hk hf hi]
            exact .closesInner f n hk hf hi

end LispLink.Source
