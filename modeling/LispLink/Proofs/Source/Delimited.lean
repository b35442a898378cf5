/-
  LispLink.Proofs.Source.Delimited
  ────────────────────────────────
  **WHAT IS OPENED IS CLOSED, OR RUNS TO THE END OF THE TEXT.**

  Strings, barred symbols and block comments are told from their first
  characters.  Whether such a token is complete can be said of its text alone:

      "…"  |…|     the mark, a body, the mark, where a body is made of plain
                   characters and of backslashes with the character behind
      #| … |#      read from left to right in pairs, the closers outnumber the
                   openers for the first time at the end

  Any other token that starts so is unclosed: nothing in it could have closed
  it, and it is the last token of the text.
-/
import LispLink.Proofs.Source.Extents
import LispLink.Proofs.Source.Steps

namespace LispLink.Source

/-! ## §1. Strings and barred symbols. -/

/-- What may stand between the marks: characters that are neither a mark nor a
backslash, and backslashes each with the character behind it. -/
inductive IsBody (mark : Char) : List Char → Prop where
  | nil : IsBody mark []
  | plain {c : Char} {cs : List Char} (hmark : c ≠ mark) (hslash : c ≠ '\\')
      (rest : IsBody mark cs) : IsBody mark (c :: cs)
  | escape (c : Char) {cs : List Char} (rest : IsBody mark cs) : IsBody mark ('\\' :: c :: cs)

/-- The kind of a token that is closed by the mark. -/
def Fence.kind : Fence → Kind
  | string => .string
  | bar => .identifier

/-- The kind of a token whose closing mark is missing. -/
def Fence.unclosed : Fence → Kind
  | string => .unclosedString
  | bar => .unclosedBar

/-- Whether a token that starts with a mark is closed exactly if its text is a body
between marks, and if not runs to the end of the text without a mark that could have
closed it. -/
structure Fence.Delimits (f : Fence) (t : Token) (after : List Token) : Prop where
  closed : t.kind = f.kind ↔
    ∃ body, IsBody f.mark body ∧ t.text.toList = f.mark :: (body ++ [f.mark])
  unclosed : t.kind ≠ f.kind → t.kind = f.unclosed ∧ after = []
    ∧ ∀ body more, IsBody f.mark body → t.text.toList ≠ f.mark :: (body ++ f.mark :: more)

/-- A backslash is the last character of a text or stands in front of one. -/
theorem ne_backslash {c : Char} {cs : List Char} (hlast : c = '\\' → cs = [] → False)
    (hpair : ∀ d ds, c = '\\' → cs = d :: ds → False) : c ≠ '\\' := by
  intro hc
  cases cs with
  | nil => exact hlast hc rfl
  | cons d ds => exact hpair d ds hc rfl

/-- **What stands behind a mark** is a body, a body and a last backslash with nothing
behind it, or a body with a mark behind it. -/
theorem isBody_cases (mark : Char) :
    ∀ cs : List Char, IsBody mark cs ∨ (∃ body, IsBody mark body ∧ cs = body ++ ['\\'])
      ∨ ∃ body more, IsBody mark body ∧ cs = body ++ mark :: more
  | [] => .inl .nil
  | [c] => by
      by_cases hmark : c = mark
      · exact .inr (.inr ⟨[], [], .nil, by rw [hmark]; rfl⟩)
      by_cases hslash : c = '\\'
      · exact .inr (.inl ⟨[], .nil, by rw [hslash]; rfl⟩)
      · exact .inl (.plain hmark hslash .nil)
  | c :: d :: cs => by
      by_cases hmark : c = mark
      · exact .inr (.inr ⟨[], d :: cs, .nil, by rw [hmark]; rfl⟩)
      by_cases hslash : c = '\\'
      · subst hslash
        rcases isBody_cases mark cs with h | ⟨body, h, rfl⟩ | ⟨body, more, h, rfl⟩
        · exact .inl (.escape d h)
        · exact .inr (.inl ⟨'\\' :: d :: body, .escape d h, rfl⟩)
        · exact .inr (.inr ⟨'\\' :: d :: body, more, .escape d h, rfl⟩)
      · rcases isBody_cases mark (d :: cs) with h | ⟨body, h, heq⟩ | ⟨body, more, h, heq⟩
        · exact .inl (.plain hmark hslash h)
        · exact .inr (.inl ⟨c :: body, .plain hmark hslash h, congrArg (c :: ·) heq⟩)
        · exact .inr (.inr ⟨c :: body, more, .plain hmark hslash h, congrArg (c :: ·) heq⟩)

namespace Lexeme

theorem start_mark (f : Fence) : start f.mark = fenced f false := by
  cases f <;> decide

/-- The fence that a state belongs to. -/
def fence? : Lexeme → Option Fence
  | fenced f _ | fenceClosed f => some f
  | _ => none

/-- Behind the first character none leads into a fence or out of it. -/
theorem fence?_of_step {s q : Lexeme} {c : Char} (h : s.step c = some q) :
    q.fence? = s.fence? := by
  unfold step stepRun stepBlock stepDatum at h
  split at h <;> grind [fence?]

theorem fence?_of_run {s q : Lexeme} {cs : List Char} (h : s.run cs = some q) :
    q.fence? = s.fence? := by
  induction cs generalizing s with
  | nil =>
      cases h
      rfl
  | cons c cs ih =>
      rw [run_cons, Option.bind_eq_some_iff] at h
      obtain ⟨s', hs, hrun⟩ := h
      rw [ih hrun, fence?_of_step hs]

/-- Only the mark leads into a fence. -/
theorem eq_mark_of_start {c : Char} {f : Fence} (h : (start c).fence? = some f) : c = f.mark := by
  by_cases hmark : ∃ g : Fence, c = g.mark
  · obtain ⟨g, rfl⟩ := hmark
    rw [start_mark] at h
    cases h
    rfl
  · have hquote : c ≠ '"' := fun hc => hmark ⟨.string, hc⟩
    have hbar : c ≠ '|' := fun hc => hmark ⟨.bar, hc⟩
    have hnone : (start c).fence? = none := by
      unfold start
      simp only [beq_iff_eq, hquote, hbar, if_false]
      split_ifs <;> rfl
    rw [hnone] at h
    cases h

/-- **A token that ends in a fence starts with its mark.** -/
theorem head?_of_fence? {q : Lexeme} {cs : List Char} {f : Fence} (h : ofChars? cs = some q)
    (hq : q.fence? = some f) : cs.head? = some f.mark := by
  cases cs with
  | nil => cases h
  | cons c cs =>
      have hstart : (start c).fence? = some f := (fence?_of_run h).symm.trans hq
      rw [eq_mark_of_start hstart]
      rfl

theorem goesOn_fenced (f : Fence) (escaped : Bool) : (fenced f escaped).GoesOn := by
  intro c
  cases escaped with
  | true => exact Option.some_ne_none _
  | false =>
      rw [step]
      split_ifs <;> exact Option.some_ne_none _

/-- A body leaves the fence as open as it was. -/
theorem run_body {f : Fence} {body : List Char} (h : IsBody f.mark body) :
    (fenced f false).run body = some (fenced f false) := by
  induction h with
  | nil => rfl
  | plain hmark hslash _ ih =>
      rw [run_cons, step, if_neg (by simpa using hslash), if_neg (by simpa using hmark)]
      exact ih
  | escape c _ ih => exact ih

/-- A mark behind a body closes the fence. -/
theorem run_body_mark {f : Fence} {body : List Char} (h : IsBody f.mark body)
    (more : List Char) :
    (fenced f false).run (body ++ f.mark :: more) = (fenceClosed f).run more := by
  have hmark : (fenced f false).step f.mark = some (fenceClosed f) := by
    cases f <;> decide
  rw [run_append, run_body h, Option.bind_some, run_cons, hmark, Option.bind_some]

end Lexeme

/-- **A token that starts with a mark.** -/
theorem Fence.delimits_of_tokenize {text : String} {before after : List Token} {t : Token}
    (h : tokenize text = before ++ t :: after) {f : Fence}
    (hmark : t.text.toList.head? = some f.mark) : f.Delimits t after := by
  obtain ⟨q, ⟨hrun, hkind⟩, hbreaks⟩ := ends_of_tokenize h
  obtain ⟨cs, hcs⟩ : ∃ cs, t.text.toList = f.mark :: cs := by
    cases htext : t.text.toList with
    | nil =>
        rw [htext] at hmark
        cases hmark
    | cons c cs =>
        rw [htext] at hmark
        cases hmark
        exact ⟨cs, rfl⟩
  rw [hcs, Lexeme.ofChars?, Lexeme.start_mark] at hrun
  have hclosed : q = .fenceClosed f → t.kind = f.kind := by
    rintro rfl
    rw [hkind]
    cases f <;> rfl
  have hunclosed : ∀ escaped, q = .fenced f escaped → t.kind = f.unclosed ∧ after = [] := by
    rintro escaped rfl
    refine ⟨?_, eq_nil_of_goesOn h (Lexeme.goesOn_fenced f escaped) hbreaks⟩
    rw [hkind]
    cases f <;> rfl
  -- whatever follows a body and a mark is not part of the token
  have hmarked : ∀ body more, IsBody f.mark body →
      t.text.toList = f.mark :: (body ++ f.mark :: more) → q = .fenceClosed f ∧ more = [] := by
    intro body more hbody htext
    rw [hcs, List.cons_inj_right] at htext
    rw [htext, Lexeme.run_body_mark hbody] at hrun
    cases more with
    | nil =>
        cases hrun
        exact ⟨rfl, rfl⟩
    | cons c more => cases hrun
  have hopen : ∀ escaped, q = .fenced f escaped → f.Delimits t after := by
    intro escaped hq
    have hne : t.kind ≠ f.kind := by
      rw [(hunclosed escaped hq).1]
      cases f <;> decide
    have hnever : ∀ body more, IsBody f.mark body →
        t.text.toList ≠ f.mark :: (body ++ f.mark :: more) := by
      intro body more hbody htext
      have hq' := (hmarked body more hbody htext).1
      rw [hq] at hq'
      cases hq'
    refine ⟨iff_of_false hne ?_, fun _ => ?_⟩
    · rintro ⟨body, hbody, htext⟩
      exact hnever body [] hbody htext
    · exact ⟨(hunclosed escaped hq).1, (hunclosed escaped hq).2, hnever⟩
  rcases isBody_cases f.mark cs with hbody | ⟨body, hbody, rfl⟩ | ⟨body, more, hbody, rfl⟩
  · rw [Lexeme.run_body hbody] at hrun
    exact hopen false (Option.some_inj.1 hrun).symm
  · rw [Lexeme.run_append, Lexeme.run_body hbody] at hrun
    exact hopen true (Option.some_inj.1 hrun).symm
  · obtain ⟨hq, rfl⟩ := hmarked body more hbody hcs
    exact ⟨iff_of_true (hclosed hq) ⟨body, hbody, hcs⟩, fun hne => absurd (hclosed hq) hne⟩

/-! ## §2. Block comments. -/

/-- What the text of a block comment is read in. -/
inductive Pairing where
  /-- A sharp sign and a bar. -/
  | opener
  /-- A bar and a sharp sign. -/
  | closer
  /-- Any other character. -/
  | other
  deriving DecidableEq, Repr

/-- Read a text from left to right in pairs that do not overlap. -/
def pairings : List Char → List Pairing
  | [] => []
  | '#' :: '|' :: cs => .opener :: pairings cs
  | '|' :: '#' :: cs => .closer :: pairings cs
  | _ :: cs => .other :: pairings cs

/-- Whether there are more closers than openers, with `n` openers in front. -/
def Outnumbers (n : Nat) (ps : List Pairing) : Prop :=
  n + ps.count .opener < ps.count .closer

instance (n : Nat) (ps : List Pairing) : Decidable (Outnumbers n ps) :=
  inferInstanceAs (Decidable (_ < _))

/-- Whether the closers outnumber the openers for the first time at the end. -/
def OutnumbersAtEnd (n : Nat) (ps : List Pairing) : Prop :=
  Outnumbers n ps ∧ ∀ qs, qs <+: ps → qs ≠ ps → ¬ Outnumbers n qs

/-- Whether the closers never outnumber the openers. -/
def NeverOutnumbers (n : Nat) (ps : List Pairing) : Prop := ∀ qs, qs <+: ps → ¬ Outnumbers n qs

/-- Whether a token that starts like a block comment is closed exactly if the closers
outnumber the openers for the first time at its end, and if not runs to the end of
the text and they never do. -/
structure DelimitsComment (t : Token) (body : List Char) (after : List Token) : Prop where
  closed : t.kind = .blockComment ↔ OutnumbersAtEnd 0 (pairings body)
  unclosed : t.kind ≠ .blockComment → t.kind = .unclosedBlockComment ∧ after = []
    ∧ NeverOutnumbers 0 (pairings body)

section

variable {n : Nat} {p : Pairing} {ps : List Pairing}

/-- The openers in front once the first pair is one of them. -/
def Pairing.weigh (n : Nat) : Pairing → Nat
  | opener => n + 1
  | closer => n - 1
  | other => n

theorem not_outnumbers_nil (n : Nat) : ¬ Outnumbers n [] := Nat.not_lt_zero _

theorem outnumbers_cons (h : p ≠ .closer ∨ n ≠ 0) :
    Outnumbers n (p :: ps) ↔ Outnumbers (p.weigh n) ps := by
  unfold Outnumbers
  cases p with
  | opener =>
      rw [List.count_cons_self, List.count_cons_of_ne (by decide)]
      show n + (_ + 1) < _ ↔ n + 1 + _ < _
      omega
  | closer =>
      have hn : n ≠ 0 := h.resolve_left fun hp => hp rfl
      rw [List.count_cons_self, List.count_cons_of_ne (by decide)]
      show n + _ < _ + 1 ↔ n - 1 + _ < _
      omega
  | other =>
      rw [List.count_cons_of_ne (by decide), List.count_cons_of_ne (by decide)]
      exact Iff.rfl

/-- What holds of all that has been read so far, pair by pair. -/
theorem forall_prefix_cons {P : List Pairing → Prop} (hnil : P []) :
    (∀ qs, qs <+: p :: ps → P qs) ↔ ∀ qs, qs <+: ps → P (p :: qs) := by
  constructor
  · intro h qs hqs
    exact h (p :: qs) ((List.prefix_cons_inj p).2 hqs)
  · intro h qs hqs
    rcases List.prefix_cons_iff.1 hqs with rfl | ⟨rest, rfl, hrest⟩
    · exact hnil
    · exact h rest hrest

theorem neverOutnumbers_cons (h : p ≠ .closer ∨ n ≠ 0) :
    NeverOutnumbers n (p :: ps) ↔ NeverOutnumbers (p.weigh n) ps := by
  unfold NeverOutnumbers
  rw [forall_prefix_cons (not_outnumbers_nil n)]
  exact forall₂_congr fun qs _ => not_congr (outnumbers_cons h)

theorem outnumbersAtEnd_cons (h : p ≠ .closer ∨ n ≠ 0) :
    OutnumbersAtEnd n (p :: ps) ↔ OutnumbersAtEnd (p.weigh n) ps := by
  unfold OutnumbersAtEnd
  rw [outnumbers_cons h, forall_prefix_cons fun _ => not_outnumbers_nil n]
  refine and_congr_right fun _ => forall₂_congr fun qs _ => ?_
  rw [outnumbers_cons h, ne_eq, List.cons_inj_right]

/-- With nothing open a closer is the one too many. -/
theorem outnumbersAtEnd_closer : OutnumbersAtEnd 0 [.closer] := by
  refine ⟨by decide, ?_⟩
  intro qs hqs hne
  rcases List.prefix_cons_iff.1 hqs with rfl | ⟨rest, rfl, hrest⟩
  · exact not_outnumbers_nil 0
  · rw [List.prefix_nil.1 hrest] at hne
    exact absurd rfl hne

/-- It cannot happen at the end and never. -/
theorem not_neverOutnumbers_of_atEnd (h : OutnumbersAtEnd n ps) : ¬ NeverOutnumbers n ps :=
  fun hnever => hnever ps (List.prefix_refl ps) h.1

end

namespace Lexeme

theorem goesOn_block (depth : Nat) (half : Option Char) : (block depth half).GoesOn :=
  fun _ => Option.some_ne_none _

/-- A character that completes no pair leaves the comment as it is, whether or not it
may be half of the next one. -/
theorem run_other {q : Lexeme} {c : Char} {cs : List Char} {depth : Nat}
    (hopen : ∀ ds, c = '#' → cs ≠ '|' :: ds) (hclose : ∀ ds, c = '|' → cs ≠ '#' :: ds)
    (h : (block depth none).run (c :: cs) = some q) :
    (block depth none).run cs = some q ∨ (cs = [] ∧ ∃ half, q = block depth half) := by
  rw [run_cons, step] at h
  simp only [stepBlock, reduceCtorEq, false_and, if_false, Option.bind_some] at h
  split_ifs at h with hhalf
  · cases cs with
    | nil =>
        cases h
        exact .inr ⟨rfl, some c, rfl⟩
    | cons d ds =>
        -- the half is forgotten with the next character
        have hno : ¬ (c = '#' ∧ d = '|') := fun hp => hopen ds hp.1 (by rw [hp.2])
        have hnc : ¬ (c = '|' ∧ d = '#') := fun hp => hclose ds hp.1 (by rw [hp.2])
        have hstep : stepBlock depth (some c) d = stepBlock depth none d := by
          simp [stepBlock, hno, hnc]
        rw [run_cons, step, hstep] at h
        exact .inl h
  · exact .inl h

/-- **Inside a block comment there are two ends**: just behind the closer that is
one too many, or still open. -/
theorem block_cases {q : Lexeme} (cs : List Char) :
    ∀ depth, (block depth none).run cs = some q →
      (q = blockClosed ∧ OutnumbersAtEnd depth (pairings cs))
        ∨ ((∃ depth' half, q = block depth' half) ∧ NeverOutnumbers depth (pairings cs)) := by
  -- along the pairs, with the openers so far as the depth
  fun_induction pairings cs with
  | case1 =>
      intro depth h
      cases h
      refine .inr ⟨⟨depth, none, rfl⟩, ?_⟩
      intro qs hqs
      rw [List.prefix_nil.1 hqs]
      exact not_outnumbers_nil depth
  | case2 cs ih =>
      intro depth h
      rw [outnumbersAtEnd_cons (.inl (by decide)), neverOutnumbers_cons (.inl (by decide))]
      exact ih (depth + 1) h
  | case3 cs ih =>
      intro depth h
      cases depth with
      | succ depth =>
          rw [outnumbersAtEnd_cons (.inr (Nat.succ_ne_zero depth)),
            neverOutnumbers_cons (.inr (Nat.succ_ne_zero depth))]
          exact ih depth h
      | zero =>
          cases cs with
          | nil =>
              cases h
              exact .inl ⟨rfl, outnumbersAtEnd_closer⟩
          | cons c cs => cases h
  | case4 c cs hopen hclose ih =>
      intro depth h
      rw [outnumbersAtEnd_cons (.inl (by decide)), neverOutnumbers_cons (.inl (by decide))]
      rcases run_other hopen hclose h with h | ⟨rfl, half, rfl⟩
      · exact ih depth h
      · refine .inr ⟨⟨depth, half, rfl⟩, ?_⟩
        intro qs hqs
        rw [List.prefix_nil.1 hqs]
        exact not_outnumbers_nil depth

end Lexeme

/-- **A token that starts like a block comment.** -/
theorem delimitsComment_of_tokenize {text : String} {before after : List Token} {t : Token}
    (h : tokenize text = before ++ t :: after) {body : List Char}
    (hbody : t.text.toList = '#' :: '|' :: body) : DelimitsComment t body after := by
  obtain ⟨q, ⟨hrun, hkind⟩, hbreaks⟩ := ends_of_tokenize h
  rw [hbody] at hrun
  have hrun' : (Lexeme.block 0 none).run body = some q := hrun
  rcases Lexeme.block_cases body 0 hrun' with ⟨rfl, hend⟩ | ⟨⟨depth, half, rfl⟩, hnever⟩
  · have hclosed : t.kind = .blockComment := hkind
    exact ⟨⟨fun _ => hend, fun _ => hclosed⟩, fun hn => absurd hclosed hn⟩
  · have hunclosed : t.kind = .unclosedBlockComment := hkind
    refine ⟨⟨fun hclosed => ?_, fun hend => absurd hnever (not_neverOutnumbers_of_atEnd hend)⟩,
      fun _ => ?_⟩
    · rw [hunclosed] at hclosed
      cases hclosed
    · exact ⟨hunclosed, eq_nil_of_goesOn h (Lexeme.goesOn_block depth half) hbreaks, hnever⟩

/-! ## §3. Unclosed tokens. -/

/-- Whether the closing mark of a token is missing. -/
def Kind.isUnclosed : Kind → Bool
  | unclosedString | unclosedBar | unclosedBlockComment => true
  | _ => false

/-- Only from inside a fence or a block comment. -/
theorem Lexeme.goesOn_of_isUnclosed {q : Lexeme} {text : String}
    (h : (q.kind text).isUnclosed = true) : q.GoesOn := by
  cases q with
  | fenced f escaped => exact goesOn_fenced f escaped
  | block depth half => exact goesOn_block depth half
  | fenceClosed f => cases f <;> cases h
  | word =>
      have hword : ∀ k ∈ Kind.wordKinds, k.isUnclosed = false := by decide
      exact absurd ((hword _ (Kind.ofWord_mem_wordKinds text)).symm.trans h) (by decide)
  | _ => cases h

/-- **An unclosed token is the last one.** -/
theorem eq_nil_of_isUnclosed {text : String} {before after : List Token} {t : Token}
    (h : tokenize text = before ++ t :: after) (ht : t.kind.isUnclosed = true) : after = [] := by
  obtain ⟨q, ⟨_, hkind⟩, hbreaks⟩ := ends_of_tokenize h
  rw [hkind] at ht
  exact eq_nil_of_goesOn h (Lexeme.goesOn_of_isUnclosed ht) hbreaks

/-- So there is at most one. -/
theorem countP_isUnclosed_le {ts : List Token}
    (h : ∀ before t after, ts = before ++ t :: after → t.kind.isUnclosed = true → after = []) :
    ts.countP (·.kind.isUnclosed) ≤ 1 := by
  induction ts with
  | nil => exact Nat.zero_le 1
  | cons t ts ih =>
      have hrest : ts.countP (·.kind.isUnclosed) ≤ 1 := by
        refine ih fun before u after hsplit hu => h (t :: before) u after ?_ hu
        rw [hsplit, List.cons_append]
      by_cases ht : t.kind.isUnclosed = true
      · obtain rfl : ts = [] := h [] t ts rfl ht
        exact Nat.le_of_eq (List.countP_cons_of_pos ht)
      · exact Nat.le_trans (Nat.le_of_eq (List.countP_cons_of_neg ht)) hrest

/-- **What is opened is closed, or runs to the end of the text.**  A token that starts
with a mark is a string, or a barred symbol, exactly if it is a body between marks; one
that starts like a block comment is one exactly if its closers outnumber its openers
for the first time at its end.  Otherwise it is unclosed, nothing in it could have
closed it, and it is the last token.  So there is at most one unclosed token. -/
theorem tokenize_delimits (text : String) :
    (∀ before t after, tokenize text = before ++ t :: after →
        (∀ f : Fence, t.text.toList.head? = some f.mark → f.Delimits t after)
        ∧ (∀ body, t.text.toList = '#' :: '|' :: body → DelimitsComment t body after)
        ∧ (t.kind.isUnclosed = true → after = []))
      ∧ (tokenize text).countP (·.kind.isUnclosed) ≤ 1 := by
  refine ⟨?_, ?_⟩
  · intro before t after h
    exact ⟨fun f hmark => Fence.delimits_of_tokenize h hmark,
      fun body hbody => delimitsComment_of_tokenize h hbody, eq_nil_of_isUnclosed h⟩
  · exact countP_isUnclosed_le fun before t after h => eq_nil_of_isUnclosed h

/-- A bar behind a backslash, a backslash behind another one, and an opener whose
second half is not the first half of a closer. -/
theorem tokenize_delimits_overlapping :
    let symbol : Token := ⟨.identifier, ⟨0, 0⟩, ⟨0, 4⟩, "|\\||"⟩
    let text : Token := ⟨.string, ⟨0, 4⟩, ⟨0, 8⟩, "\"\\\\\""⟩
    let comment : Token := ⟨.unclosedBlockComment, ⟨0, 8⟩, ⟨0, 11⟩, "#|#"⟩
    tokenize "|\\||\"\\\\\"#|#" = [symbol, text, comment]
      ∧ Fence.bar.Delimits symbol [text, comment] ∧ Fence.string.Delimits text [comment]
      ∧ DelimitsComment comment ['#'] [] := by
  intro symbol text comment
  have h : tokenize "|\\||\"\\\\\"#|#" = [symbol, text, comment] := by decide
  obtain ⟨hall, _⟩ := tokenize_delimits "|\\||\"\\\\\"#|#"
  exact ⟨h, (hall [] symbol _ h).1 .bar (by decide), (hall [symbol] text _ h).1 .string (by decide),
    (hall [symbol, text] comment _ h).2.1 ['#'] (by decide)⟩

end LispLink.Source
