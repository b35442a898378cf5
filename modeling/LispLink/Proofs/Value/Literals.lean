/-
  LispLink.Proofs.Value.Literals
  ────────────────────────────────
  **WHAT A STRING LITERAL HOLDS.**

  A literal holds what its text says between the quotes (`Tells`): a backslash
  and the character behind it stand for that character, a backslash with
  nothing behind it for nothing.  The scanner knows which quote closes the
  literal; the value is made from the bare text, and a quote at its end is
  taken for the closing one.  The two agree but for one case:

      "…"      the last quote is the closing one
      "…       no quote at the end, and nothing is taken away
      "…\"     the last quote is escaped, and is lost

  So an unclosed literal that ends in an escaped quote is short of that quote,
  and every other literal is worth what it holds (`ofSexp_literal_iff`).
-/
import LispLink.Proofs.Source.Delimited
import LispLink.Proofs.Source.Leaves
import LispLink.Value.Reading

namespace LispLink.Value

open Source

/-! ## §1. Contents. -/

/-- Whether the characters between the quotes stand for the contents. -/
inductive Tells : List Char → List Char → Prop where
  | nil : Tells [] []
  | plain {c : Char} {cs ds : List Char} (hslash : c ≠ '\\') (rest : Tells cs ds) :
      Tells (c :: cs) (c :: ds)
  | escape (c : Char) {cs ds : List Char} (rest : Tells cs ds) : Tells ('\\' :: c :: cs) (c :: ds)
  | lone : Tells ['\\'] []

/-- A character that is no backslash stands for itself. -/
theorem unescape_plain {c : Char} (hslash : c ≠ '\\') (cs : List Char) :
    unescape (c :: cs) = c :: unescape cs := by
  rw [unescape]
  · exact fun h => absurd h hslash
  · exact fun _ _ h => absurd h hslash

/-- **Unescaping finds the contents.** -/
theorem tells_unescape (cs : List Char) : Tells cs (unescape cs) := by
  fun_induction unescape cs with
  | case1 => exact .nil
  | case2 => exact .lone
  | case3 c rest ih => exact .escape c ih
  | case4 c rest hlone hpair ih =>
      exact .plain (ne_backslash hlone hpair) ih

/-- There are no others. -/
theorem unescape_of_tells {cs ds : List Char} (h : Tells cs ds) : unescape cs = ds := by
  induction h with
  | nil => rfl
  | plain hslash _ ih => rw [unescape_plain hslash, ih]
  | escape c _ ih => rw [unescape, ih]
  | lone => rfl

/-- Behind a body the contents go on as if they began there. -/
theorem unescape_append {mark : Char} {body : List Char} (h : IsBody mark body)
    (cs : List Char) : unescape (body ++ cs) = unescape body ++ unescape cs := by
  induction h with
  | nil => rfl
  | plain _ hslash _ ih =>
      rw [List.cons_append, unescape_plain hslash, unescape_plain hslash, ih, List.cons_append]
  | escape c _ ih =>
      rw [List.cons_append, List.cons_append, unescape, unescape, ih, List.cons_append]

/-- A mark in a body stands behind a backslash. -/
theorem eq_escape_of_getLast? {mark : Char} {body : List Char} (h : IsBody mark body)
    (hlast : body.getLast? = some mark) :
    ∃ pre, IsBody mark pre ∧ body = pre ++ ['\\', mark] := by
  induction h with
  | nil => cases hlast
  | @plain c cs hmark hslash rest ih =>
      cases cs with
      | nil => exact absurd (Option.some_inj.1 hlast) hmark
      | cons d ds =>
          rw [List.getLast?_cons_cons] at hlast
          obtain ⟨pre, hpre, heq⟩ := ih hlast
          exact ⟨c :: pre, .plain hmark hslash hpre, congrArg (c :: ·) heq⟩
  | @escape c cs rest ih =>
      cases cs with
      | nil =>
          obtain rfl : c = mark := Option.some_inj.1 hlast
          exact ⟨[], .nil, rfl⟩
      | cons d ds =>
          rw [List.getLast?_cons_cons, List.getLast?_cons_cons] at hlast
          obtain ⟨pre, hpre, heq⟩ := ih hlast
          exact ⟨'\\' :: c :: pre, .escape c hpre, congrArg ('\\' :: c :: ·) heq⟩

/-! ## §2. Literals. -/

/-- Whether a string token has these characters between its quotes, or behind the only
one it has, and they stand for these contents. -/
structure IsLiteral (a : Atom) (inner contents : List Char) : Prop where
  text_eq : a.text.toList = '"' :: (inner ++ if a.kind = .string then ['"'] else [])
  tells : Tells inner contents

/-- Whether a string token is unclosed and ends in a quote, which is escaped. -/
def EndsEscaped (a : Atom) (inner : List Char) : Prop :=
  a.kind = .unclosedString ∧ inner.getLast? = some '"'

theorem ne_string_of_unclosed {a : Atom} (h : a.kind = .unclosedString) : a.kind ≠ .string := by
  rw [h]
  decide

theorem ofAtom_string {a : Atom} (h : a.kind = .string ∨ a.kind = .unclosedString) :
    ofAtom a = str (String.ofList (ofStringChars a.text.toList)) := by
  unfold ofAtom
  rcases h with h | h <;> rw [h]

/-- Behind both quotes are taken away, unescaping finds the contents. -/
theorem ofStringChars_closed (body : List Char) :
    ofStringChars ('"' :: (body ++ ['"'])) = unescape body := by
  have hlast : (body ++ ['"']).getLast? = some '"' := List.getLast?_concat
  show unescape (if (body ++ ['"']).getLast? = some '"' then (body ++ ['"']).dropLast
    else body ++ ['"']) = _
  rw [if_pos hlast, List.dropLast_concat]

/-- Nothing is taken from the end of a text that does not end in a quote. -/
theorem ofStringChars_open {inner : List Char} (h : inner.getLast? ≠ some '"') :
    ofStringChars ('"' :: inner) = unescape inner := by
  show unescape (if inner.getLast? = some '"' then inner.dropLast else inner) = _
  rw [if_neg h]

/-- **A quote at the end is lost**, and the backslash in front of it stands for
nothing. -/
theorem ofStringChars_escaped {pre : List Char} (h : IsBody '"' pre) :
    ofStringChars ('"' :: (pre ++ ['\\', '"'])) = unescape pre
      ∧ unescape (pre ++ ['\\', '"']) = unescape pre ++ ['"'] := by
  refine ⟨?_, unescape_append h _⟩
  have hsplit : pre ++ ['\\', '"'] = (pre ++ ['\\']) ++ ['"'] := by simp
  rw [hsplit, ofStringChars_closed, unescape_append h]
  exact List.append_nil _

/-- Only a token that ends in a string's fence is a string. -/
theorem fence?_of_kind {q : Lexeme} {text : String}
    (h : q.kind text = .string ∨ q.kind text = .unclosedString) : q.fence? = some .string := by
  have hword : ∀ k ∈ Kind.wordKinds, k ≠ .string ∧ k ≠ .unclosedString := by decide
  cases q with
  | fenced f escaped =>
      cases f with
      | string => rfl
      | bar => rcases h with h | h <;> cases h
  | fenceClosed f =>
      cases f with
      | string => rfl
      | bar => rcases h with h | h <;> cases h
  | word =>
      obtain ⟨hclosed, hopen⟩ := hword _ (Kind.ofWord_mem_wordKinds text)
      exact absurd h (not_or.2 ⟨hclosed, hopen⟩)
  | _ => rcases h with h | h <;> cases h

/-- A string token of a text is a closed literal around a body, or an open one in
which no quote closes it. -/
theorem string_cases {text : String} {a : Atom} (ha : a ∈ Sexp.allAtoms (parse text)) :
    (a.kind = .string → ∃ body, IsBody '"' body ∧ a.text.toList = '"' :: (body ++ ['"']))
      ∧ (a.kind = .unclosedString → ∃ inner, a.text.toList = '"' :: inner
        ∧ (inner.getLast? = some '"' → IsBody '"' inner)) := by
  have htoken := (atoms_read (tokenize text)).2.1 a ha
  obtain ⟨hlt, hget⟩ := List.getElem?_eq_some_iff.1 htoken
  have hsplit : tokenize text = (tokenize text).take a.index ++ a.token
      :: (tokenize text).drop (a.index + 1) := by
    rw [← hget, ← List.drop_eq_getElem_cons hlt, List.take_append_drop]
  obtain ⟨q, ⟨hrun, hkind⟩, _⟩ := ends_of_tokenize hsplit
  have hstring : a.kind = .string ∨ a.kind = .unclosedString →
      a.text.toList.head? = some '"' := by
    intro h
    rw [show a.kind = q.kind a.text from hkind] at h
    exact Lexeme.head?_of_fence? hrun (fence?_of_kind h)
  refine ⟨fun hclosed => ?_, fun hopen => ?_⟩
  · exact (Fence.delimits_of_tokenize hsplit (f := .string) (hstring (.inl hclosed))).closed.1
      hclosed
  · obtain ⟨_, _, hnever⟩ :=
      (Fence.delimits_of_tokenize hsplit (f := .string) (hstring (.inr hopen))).unclosed
        (ne_string_of_unclosed hopen)
    obtain ⟨inner, hinner⟩ := List.head?_eq_some_iff.1 (hstring (.inr hopen))
    refine ⟨inner, hinner, fun hlast => ?_⟩
    rcases isBody_cases '"' inner with h | ⟨body, _, rfl⟩ | ⟨body, more, h, rfl⟩
    · exact h
    · rw [List.getLast?_concat] at hlast
      cases hlast
    · exact absurd hinner (hnever body more h)

/-! ## §3. What a literal is worth. -/

/-- What a literal holds is told by its text. -/
theorem IsLiteral.unique {a : Atom} {inner inner' contents contents' : List Char}
    (h : IsLiteral a inner contents) (h' : IsLiteral a inner' contents') :
    inner = inner' ∧ contents = contents' := by
  have hinner : inner = inner' :=
    List.append_cancel_right (List.cons_inj_right _ |>.1 (h.text_eq.symm.trans h'.text_eq))
  refine ⟨hinner, ?_⟩
  rw [← unescape_of_tells h.tells, ← unescape_of_tells h'.tells, hinner]

/-- **A string literal is worth what it holds, unless it is unclosed and ends in an
escaped quote**, which is lost. -/
theorem ofSexp_literal_iff {text : String} {a : Atom} (ha : a ∈ Sexp.allAtoms (parse text))
    (hk : a.kind = .string ∨ a.kind = .unclosedString) :
    (∃ inner contents, IsLiteral a inner contents)
      ∧ ∀ inner contents, IsLiteral a inner contents →
        (ofSexp (.atom a) = str (String.ofList contents) ↔ ¬ EndsEscaped a inner)
        ∧ (EndsEscaped a inner → ∃ kept, contents = kept ++ ['"']
            ∧ ofSexp (.atom a) = str (String.ofList kept)) := by
  have hliteral : ∃ inner contents, IsLiteral a inner contents
      ∧ (EndsEscaped a inner → IsBody '"' inner) := by
    obtain ⟨hclosed, hopen⟩ := string_cases ha
    rcases hk with hk | hk
    · obtain ⟨body, hbody, htext⟩ := hclosed hk
      exact ⟨body, _, ⟨by rw [htext, if_pos hk], tells_unescape body⟩, fun _ => hbody⟩
    · obtain ⟨inner, htext, hbody⟩ := hopen hk
      have hne := ne_string_of_unclosed hk
      exact ⟨inner, _, ⟨by rw [htext, if_neg hne, List.append_nil], tells_unescape inner⟩,
        fun h => hbody h.2⟩
  obtain ⟨inner, contents, h, hbody⟩ := hliteral
  refine ⟨⟨inner, contents, h⟩, fun inner' contents' h' => ?_⟩
  obtain ⟨rfl, rfl⟩ := h.unique h'
  rw [ofSexp, ofAtom_string hk, h.text_eq]
  have hcontents := unescape_of_tells h.tells
  by_cases hends : EndsEscaped a inner
  · -- the quote at the end of the body is taken for the closing one
    obtain ⟨pre, hpre, rfl⟩ := eq_escape_of_getLast? (hbody hends) hends.2
    obtain ⟨hvalue, hquote⟩ := ofStringChars_escaped hpre
    rw [if_neg (ne_string_of_unclosed hends.1), List.append_nil, hvalue, ← hcontents, hquote]
    refine ⟨iff_of_false ?_ fun h => h hends, fun _ => ⟨unescape pre, rfl, rfl⟩⟩
    intro hsame
    have hlists := congrArg String.toList (Value.str.inj hsame)
    rw [String.toList_ofList, String.toList_ofList] at hlists
    exact absurd hlists (by simp)
  · refine ⟨iff_of_true ?_ hends, fun h => absurd h hends⟩
    rw [← hcontents]
    rcases hk with hk | hk
    · rw [if_pos hk, ofStringChars_closed]
    · have hlast : inner.getLast? ≠ some '"' := fun hlast => hends ⟨hk, hlast⟩
      rw [if_neg (ne_string_of_unclosed hk), List.append_nil, ofStringChars_open hlast]

/-- A closed literal that ends in an escaped quote keeps it. -/
theorem ofSexp_literal_closed :
    let a : Atom := ⟨⟨.string, ⟨0, 1⟩, ⟨0, 6⟩, "\"a\\\"\""⟩, 1, .none⟩
    a ∈ Sexp.allAtoms (parse "(\"a\\\"\")") ∧ (a.kind = .string ∨ a.kind = .unclosedString)
      ∧ IsLiteral a ['a', '\\', '"'] ['a', '"'] ∧ ofSexp (.atom a) = str "a\"" := by
  intro a
  have ha : a ∈ Sexp.allAtoms (parse "(\"a\\\"\")") := by decide
  have hk : a.kind = .string ∨ a.kind = .unclosedString := .inl rfl
  have h : IsLiteral a ['a', '\\', '"'] ['a', '"'] :=
    ⟨by decide, .plain (by decide) (.escape '"' .nil)⟩
  exact ⟨ha, hk, h, ((ofSexp_literal_iff ha hk).2 _ _ h).1.2 fun h => nomatch h.1⟩

/-- **The escaped quote is lost**: an unclosed literal holds an `a` and a quote, and is
worth an `a`. -/
theorem unclosed_literal_loses_quote :
    let a : Atom := ⟨⟨.unclosedString, ⟨0, 0⟩, ⟨0, 4⟩, "\"a\\\""⟩, 0, .none⟩
    a ∈ Sexp.allAtoms (parse "\"a\\\"") ∧ IsLiteral a ['a', '\\', '"'] ['a', '"']
      ∧ ofSexp (.atom a) = str "a" ∧ ofSexp (.atom a) ≠ str "a\"" := by
  intro a
  have hvalue : ofSexp (.atom a) = str "a" := by
    rw [ofSexp, ofAtom_string (.inr rfl)]
    exact congrArg str (by decide)
  refine ⟨by decide, ⟨by decide, .plain (by decide) (.escape '"' .nil)⟩, hvalue, ?_⟩
  rw [hvalue]
  exact fun h => absurd (Value.str.inj h) (by decide)

end LispLink.Value
