/-
  LispLink.Proofs.Value.RoundTrip
  ────────────────────────────────
  **A WRITTEN VALUE READS BACK.**

  Writing and reading meet in the tokens of a value, which are defined along
  the value (`pieces`):

      v  ──chars──▸  text  ──tokenize──▸  v.pieces  ──read──▸  one expression
      └────────────────────normal───────────────────▸  its value

  The first half walks over the text, and what it keeps is that a token of the
  value never runs on into the next.  The second half walks over the tokens with
  the lists that are open; the deepest level that is allowed is read flat, which
  makes no difference because only atoms are left there.
-/
import LispLink.Proofs.Value.Atoms

namespace LispLink.Value

open Source

/-! ## §1. The tokens of a value. -/

/-- The paren before a list. -/
def openPiece : Piece := ⟨.openParen, "("⟩

/-- The paren behind a list. -/
def closePiece : Piece := ⟨.closeParen, ")"⟩

/-- The blank between two elements. -/
def gapPiece : Piece := ⟨.whitespace, " "⟩

mutual

/-- The tokens of a value. -/
def pieces : Value → List Piece
  | list vs => openPiece :: (itemsPieces vs ++ [closePiece])
  | record fs => openPiece :: (fieldsPieces fs ++ [closePiece])
  | v => [v.atomPiece]

/-- The tokens of several values. -/
def itemsPieces : List Value → List Piece
  | [] => []
  | [v] => pieces v
  | v :: w :: rest => pieces v ++ gapPiece :: itemsPieces (w :: rest)

/-- The tokens of several fields. -/
def fieldsPieces : List (String × Value) → List Piece
  | [] => []
  | [(k, v)] => (keyword k).atomPiece :: gapPiece :: pieces v
  | (k, v) :: f :: rest =>
    (keyword k).atomPiece :: gapPiece :: (pieces v ++ gapPiece :: fieldsPieces (f :: rest))

end

theorem pieces_atom {v : Value} (h : v.depth = 0) : v.pieces = [v.atomPiece] := by
  cases v with
  | list vs => cases h
  | record fs => cases h
  | _ => rw [pieces] <;> simp

theorem fieldsPieces_eq : ∀ fs : List (String × Value), fieldsPieces fs = itemsPieces (plist fs)
  | [] => by simp [plist, fieldsPieces, itemsPieces]
  | [(k, v)] => by simp [plist, fieldsPieces, itemsPieces, pieces]
  | (k, v) :: (k', v') :: fs => by
      have ih := fieldsPieces_eq ((k', v') :: fs)
      simp only [plist] at ih
      simp [plist, fieldsPieces, itemsPieces, pieces, ih]

/-- A record has the tokens of the list of its keys and values. -/
theorem pieces_record (fs : List (String × Value)) :
    (record fs).pieces = (list (plist fs)).pieces := by
  simp only [pieces, fieldsPieces_eq]

/-! ## §2. From the text to the tokens. -/

/-- Whether every character but a blank begins a token of its own.  It holds at
the start of a text, behind an open paren and behind a blank. -/
def IsOpen (s : Lexing) : Prop := ∀ c, Text.isBlank c = false → s.BreaksAt c

/-- Whether every delimiter begins a token of its own.  It holds behind every
value. -/
def IsSettled (s : Lexing) : Prop := ∀ c, isDelimiter c = true → s.BreaksAt c

/-- What the characters of a value do to a pass over a text. -/
def Cuts (s : Lexing) (cs : List Char) (ps : List Piece) : Prop :=
  (s.pushAll cs).pieces = s.pieces ++ ps ∧ IsSettled (s.pushAll cs)

theorem isOpen_begin : IsOpen .begin := by
  intro c _ t ht
  cases ht

/-- A run of blanks is nothing else. -/
theorem eq_blank_of_run {cs : List Char} {q : Lexeme} (h : Lexeme.blank.run cs = some q) :
    q = .blank := by
  induction cs with
  | nil =>
      cases h
      rfl
  | cons c cs ih =>
      rw [Lexeme.run_cons, Lexeme.step] at h
      split at h
      · exact ih h
      · cases h

theorem cuts_atom {v : Value} {s : Lexing} (hsafe : v.isWireSafe = true) (hatom : v.depth = 0)
    (hs : IsOpen s) : Cuts s v.chars v.pieces := by
  have hq := ofChars?_atom hsafe hatom
  unfold Cuts
  cases hcs : v.chars with
  | nil =>
      rw [hcs] at hq
      cases hq
  | cons c cs =>
      rw [hcs] at hq
      -- a blank would start a run of blanks, which no atom is
      have hc : Text.isBlank c = false := by
        rw [← Bool.not_eq_true]
        intro hblank
        have hstart : Lexeme.start c = .blank := by rw [Lexeme.start, if_pos hblank]
        rw [Lexeme.ofChars?, hstart] at hq
        have hword := eq_blank_of_run hq
        cases v <;> cases hword
      obtain ⟨hpieces, hbreaks⟩ := Lexing.pieces_pushAll_token (hs c hc) hq
      rw [hpieces, pieces_atom hatom, atomPiece, encode, hcs]
      exact ⟨rfl, fun d hd => hbreaks d (step_atomLexeme hd)⟩

/-- The blank between two elements opens the text for the second. -/
theorem isOpen_gap {s : Lexing} (hs : IsSettled s) :
    (s.pushAll [' ']).pieces = s.pieces ++ [gapPiece] ∧ IsOpen (s.pushAll [' ']) := by
  have hgap : Lexeme.ofChars? [' '] = some .blank := by decide
  obtain ⟨hpieces, hbreaks⟩ := Lexing.pieces_pushAll_token (hs ' ' (by decide)) hgap
  refine ⟨hpieces, fun d hd => hbreaks d ?_⟩
  rw [Lexeme.step, hd]
  rfl

/-- Elements are cut one by one, and a close paren begins a token behind them. -/
theorem cuts_items {vs : List Value} {s : Lexing}
    (hvs : ∀ v ∈ vs, ∀ s, IsOpen s → Cuts s v.chars v.pieces) (hs : IsOpen s) :
    (s.pushAll (itemsChars vs)).pieces = s.pieces ++ itemsPieces vs
      ∧ (s.pushAll (itemsChars vs)).BreaksAt ')' := by
  induction vs generalizing s with
  | nil =>
      rw [itemsChars, itemsPieces, List.append_nil]
      exact ⟨rfl, hs ')' (by decide)⟩
  | cons v rest ih =>
      obtain ⟨hpieces, hsettled⟩ := hvs v List.mem_cons_self s hs
      cases rest with
      | nil =>
          rw [itemsChars, itemsPieces]
          exact ⟨hpieces, hsettled ')' (by decide)⟩
      | cons w rest =>
          -- the text of the element, the blank, and the text of the rest
          obtain ⟨hgap, hopen⟩ := isOpen_gap hsettled
          obtain ⟨hrest, hclose⟩ := ih (fun u hu => hvs u (List.mem_cons_of_mem v hu)) hopen
          have hsplit : s.pushAll (itemsChars (v :: w :: rest))
              = ((s.pushAll v.chars).pushAll [' ']).pushAll (itemsChars (w :: rest)) := by
            rw [itemsChars, Lexing.pushAll_append]
            rfl
          rw [hsplit, hrest, hgap, hpieces, itemsPieces]
          exact ⟨by simp, hclose⟩

theorem cuts_list {vs : List Value} {s : Lexing}
    (hvs : ∀ v ∈ vs, ∀ s, IsOpen s → Cuts s v.chars v.pieces) (hs : IsOpen s) :
    Cuts s (list vs).chars (list vs).pieces := by
  have hopen : Lexeme.ofChars? ['('] = some .openParen := by decide
  have hclose : Lexeme.ofChars? [')'] = some .closeParen := by decide
  obtain ⟨h1, hb1⟩ := Lexing.pieces_pushAll_token (hs '(' (by decide)) hopen
  obtain ⟨h2, hb2⟩ := cuts_items hvs (fun d _ => hb1 d rfl)
  obtain ⟨h3, hb3⟩ := Lexing.pieces_pushAll_token hb2 hclose
  have hsplit : s.pushAll (list vs).chars
      = ((s.pushAll ['(']).pushAll (itemsChars vs)).pushAll [')'] := by
    rw [chars, Lexing.pushAll_cons, Lexing.pushAll_append]
    rfl
  unfold Cuts
  rw [hsplit, h3, h2, h1, pieces]
  refine ⟨?_, fun d _ => hb3 d rfl⟩
  show s.pieces ++ [openPiece] ++ itemsPieces vs ++ [closePiece] = _
  simp

/-- **The text of a value is cut into the tokens of the value.** -/
theorem cuts_chars (v : Value) :
    ∀ s, v.isWireSafe = true → IsOpen s → Cuts s v.chars v.pieces := by
  induction v using written_induction with
  | atom v hatom =>
      intro s hsafe hs
      exact cuts_atom hsafe hatom hs
  | list vs ih =>
      intro s hsafe hs
      rw [isWireSafe, areWireSafe_iff] at hsafe
      exact cuts_list (fun v hv s hs => ih v hv s (hsafe v hv) hs) hs
  | record fs ih =>
      intro s hsafe hs
      rw [chars_record, pieces_record]
      exact ih s (isWireSafe_record fs ▸ hsafe) hs

theorem tokenize_encode {v : Value} (hsafe : v.isWireSafe = true) :
    (tokenize v.encode).map Token.piece = v.pieces := by
  have hcuts := (cuts_chars v .begin hsafe isOpen_begin).1
  rw [tokenize, encode, String.toList_ofList]
  exact hcuts

/-! ## §3. From the tokens to an expression. -/

/-- Whether two readings hold the same expressions: they may differ in the
classes of the tokens. -/
def SameForms (r r' : Reading) : Prop :=
  r.forms = r'.forms ∧ r.stack = r'.stack ∧ r.flat = r'.flat ∧ r.next = r'.next

/-- Whether tokens that say `ps` are read as one expression that stands for
`v`. -/
def ReadsAs (r : Reading) (ps : List Piece) (v : Value) : Prop :=
  ∀ ts : List Token, ts.map Token.piece = ps →
    ∃ e, SameForms (r.pushAll ts) (r.add e) ∧ ofSexp e = v

theorem sameForms_classed (r : Reading) (kind : Kind) (taint : Taint) (e : Sexp) :
    SameForms ((r.classed kind taint).add e) (r.add e) := by
  unfold Reading.add Reading.classed
  cases r.stack <;> exact ⟨rfl, rfl, rfl, rfl⟩

/-- Elements are read one by one: `R es r` says that a list is open in `r` with
the elements `es` so far, last first. -/
theorem reads_items {R : List Sexp → Reading → Prop} {vs : List Value}
    (hgap : ∀ es r t, R es r → t.kind = .whitespace → R es (r.push t))
    (hitem : ∀ v ∈ vs, ∀ es r ts, R es r → ts.map Token.piece = v.pieces →
      ∃ e, R (e :: es) (r.pushAll ts) ∧ ofSexp e = v.normal) :
    ∀ (ts : List Token) (es : List Sexp) (r : Reading), R es r →
      ts.map Token.piece = itemsPieces vs →
      ∃ new, R (new.reverse ++ es) (r.pushAll ts) ∧ ofSexps new = normals vs := by
  induction vs with
  | nil =>
      intro ts es r hr hts
      rw [itemsPieces, List.map_eq_nil_iff] at hts
      subst hts
      exact ⟨[], hr, by rw [ofSexps, normals]⟩
  | cons v rest ih =>
      intro ts es r hr hts
      cases rest with
      | nil =>
          rw [itemsPieces] at hts
          obtain ⟨e, hr', he⟩ := hitem v List.mem_cons_self es r ts hr hts
          exact ⟨[e], hr', by rw [ofSexps, ofSexps, normals, normals, he]⟩
      | cons w rest =>
          -- the tokens fall apart as their pieces do
          rw [itemsPieces, List.map_eq_append_iff] at hts
          obtain ⟨ts₁, ts₂, rfl, h1, h2⟩ := hts
          rw [List.map_eq_cons_iff] at h2
          obtain ⟨t, ts₃, rfl, ht, h3⟩ := h2
          obtain ⟨e, hr1, he⟩ := hitem v List.mem_cons_self es r ts₁ hr h1
          have hr2 := hgap (e :: es) _ t hr1 (congrArg Piece.kind ht)
          obtain ⟨new, hr3, hnew⟩ :=
            ih (fun u hu => hitem u (List.mem_cons_of_mem v hu)) ts₃ _ _ hr2 h3
          refine ⟨e :: new, ?_, ?_⟩
          · rw [Reading.pushAll_append, Reading.pushAll_cons, List.reverse_cons,
              List.append_assoc]
            exact hr3
          · rw [ofSexps, normals, he, hnew]

theorem readsAs_atom {v : Value} {r : Reading} (hsafe : v.isWireSafe = true)
    (hatom : v.depth = 0) (hr : r.flat = none) : ReadsAs r v.pieces v := by
  intro ts hts
  rw [pieces_atom hatom, List.map_eq_singleton_iff] at hts
  obtain ⟨t, rfl, ht⟩ := hts
  have hkind : t.kind.isAtomic = true := by
    rw [show t.kind = v.atomPiece.kind from congrArg Piece.kind ht]
    exact isAtomic_atomPiece v
  refine ⟨.atom ⟨t, r.classes.size, r.next⟩, ?_, ?_⟩
  · rw [Reading.pushAll_cons, Reading.pushAll_nil, Reading.push_atomic hkind hr]
    exact sameForms_classed _ _ _ _
  · rw [ofSexp]
    exact ofAtom_atomPiece hsafe hatom ht

theorem normal_atom {v : Value} (h : v.depth = 0) : v.normal = v := by
  cases v with
  | list vs => cases h
  | record fs => cases h
  | _ => rw [normal] <;> simp

/-- A list stands for the values of its elements. -/
theorem ofSexp_list {vs : List Value} {es : List Sexp} (o : Outline) (role : Role)
    (h : ofSexps es = normals vs) : ofSexp (.list o role es) = (list vs).normal := by
  cases vs with
  | nil =>
      cases es with
      | nil => rw [ofSexp, normal]
      | cons e es =>
          rw [ofSexps, normals] at h
          cases h
  | cons v vs =>
      cases es with
      | nil =>
          rw [ofSexps, normals] at h
          cases h
      | cons e es =>
          rw [ofSexps, normals] at h
          rw [ofSexp, normal, h]

/-! ## §4. Inside a list. -/

/-- A reading with the forms `fs` that is inside the open list `l`, which has the
elements `es` so far. -/
def InList (fs : List Sexp) (l : OpenList) (ls : List OpenList) (es : List Sexp)
    (r : Reading) : Prop :=
  r.forms = fs ∧ r.flat = none ∧ r.stack = { l with elements := es } :: ls

/-- A reading with the forms `fs` that is inside the list `f`, which is read flat
and has the elements `es` so far. -/
def InFlat (fs : List Sexp) (f : FlatList) (ls : List OpenList) (es : List Sexp)
    (r : Reading) : Prop :=
  r.forms = fs ∧ r.flat = some { f with elements := es } ∧ r.stack = ls

section

variable {fs es : List Sexp} {l : OpenList} {f : FlatList} {ls : List OpenList}
  {r : Reading} {t : Token}

theorem inList_gap (h : InList fs l ls es r) (ht : t.kind = .whitespace) :
    InList fs l ls es (r.push t) := by
  rw [Reading.push_trivia (by rw [ht]; rfl)]
  exact h

theorem inFlat_gap (h : InFlat fs f ls es r) (ht : t.kind = .whitespace) :
    InFlat fs f ls es (r.push t) := by
  rw [Reading.push_trivia (by rw [ht]; rfl)]
  exact h

theorem inList_of_sameForms {r' : Reading} {e : Sexp} (h : InList fs l ls es r)
    (hr' : SameForms r' (r.add e)) : InList fs l ls (e :: es) r' := by
  obtain ⟨hforms, hflat, hstack⟩ := h
  obtain ⟨h1, h2, h3, _⟩ := hr'
  rw [Reading.add, hstack] at h1 h2 h3
  exact ⟨h1.trans hforms, h3.trans hflat, h2⟩

/-- In a flat list every atom is an element. -/
theorem inFlat_atom {v : Value} {ts : List Token} (h : InFlat fs f ls es r)
    (hsafe : v.isWireSafe = true) (hatom : v.depth = 0)
    (hts : ts.map Token.piece = v.pieces) :
    ∃ e, InFlat fs f ls (e :: es) (r.pushAll ts) ∧ ofSexp e = v.normal := by
  rw [pieces_atom hatom, List.map_eq_singleton_iff] at hts
  obtain ⟨t, rfl, ht⟩ := hts
  have hkind : t.kind.isAtomic = true := by
    rw [show t.kind = v.atomPiece.kind from congrArg Piece.kind ht]
    exact isAtomic_atomPiece v
  refine ⟨.atom ⟨t, r.classes.size, f.taint⟩, ?_, ?_⟩
  · rw [Reading.pushAll_cons, Reading.pushAll_nil, Reading.push_atomic_flat hkind h.2.1]
    exact ⟨h.1, rfl, h.2.2⟩
  · rw [ofSexp, normal_atom hatom]
    exact ofAtom_atomPiece hsafe hatom ht

/-- The close paren makes one expression of an open list. -/
theorem inList_close {r₀ : Reading} (h : InList r₀.forms l r₀.stack es r)
    (hflat : r₀.flat = none) (ht : t.kind = .closeParen) :
    SameForms (r.push t) (r₀.add (.list ⟨l.start, t.stop, true, l.taint⟩
      (Recognition.ofList l.taint es.reverse).role es.reverse)) := by
  obtain ⟨hforms, hnone, hstack⟩ := h
  obtain ⟨forms₀, stack₀, flat₀, next₀, classes₀⟩ := r₀
  obtain ⟨forms, stack, flat, next, classes⟩ := r
  cases hforms
  cases hflat
  cases hnone
  cases hstack
  rw [Reading.push_closeParen ht rfl rfl]
  unfold Reading.close Reading.classed Reading.add
  cases stack₀ <;> exact ⟨rfl, rfl, rfl, rfl⟩

/-- The close paren makes one expression of a flat list. -/
theorem inFlat_close {r₀ : Reading} (h : InFlat r₀.forms f r₀.stack es r)
    (hflat : r₀.flat = none) (hinner : f.inner = 0) (ht : t.kind = .closeParen) :
    SameForms (r.push t)
      (r₀.add (.list ⟨f.start, t.stop, true, f.taint⟩ .plain es.reverse)) := by
  obtain ⟨hforms, hsome, hstack⟩ := h
  obtain ⟨forms₀, stack₀, flat₀, next₀, classes₀⟩ := r₀
  obtain ⟨forms, stack, flat, next, classes⟩ := r
  cases hforms
  cases hflat
  cases hsome
  cases hstack
  rw [Reading.push_closeParen_flat (f := { f with elements := es }) ht rfl hinner]
  unfold Reading.closeFlat Reading.classed Reading.add
  cases stack₀ <;> exact ⟨rfl, rfl, rfl, rfl⟩

end

/-! ## §5. The round trip. -/

/-- The tokens of a list are an open paren, those of the elements, and a close
paren, and they are read in that order. -/
theorem tokens_list {vs : List Value} {ts : List Token}
    (h : ts.map Token.piece = (list vs).pieces) :
    ∃ t items c, t.kind = .openParen ∧ items.map Token.piece = itemsPieces vs
      ∧ c.kind = .closeParen
      ∧ ∀ r : Reading, r.pushAll ts = ((r.push t).pushAll items).push c := by
  rw [pieces, List.map_eq_cons_iff] at h
  obtain ⟨t, ts, rfl, ht, hts⟩ := h
  rw [List.map_eq_append_iff] at hts
  obtain ⟨items, cs, rfl, hitems, hcs⟩ := hts
  rw [List.map_eq_singleton_iff] at hcs
  obtain ⟨c, rfl, hc⟩ := hcs
  refine ⟨t, items, c, congrArg Piece.kind ht, hitems, congrArg Piece.kind hc, fun r => ?_⟩
  rw [Reading.pushAll_cons, Reading.pushAll_append, Reading.pushAll_cons, Reading.pushAll_nil]

/-- A list with room for its elements is read as a tree. -/
theorem readsAs_list {vs : List Value} {r : Reading} (hr : r.flat = none)
    (hlen : r.stack.length < maxDepth)
    (hvs : ∀ v ∈ vs, ∀ r', r'.flat = none → r'.stack.length = r.stack.length + 1 →
      ReadsAs r' v.pieces v.normal) :
    ReadsAs r (list vs).pieces (list vs).normal := by
  intro ts hts
  obtain ⟨t, items, c, ht, hitems, hc, hpush⟩ := tokens_list hts
  let l : OpenList := ⟨t.start, r.classes.size, r.next, []⟩
  have hopen : InList r.forms l r.stack [] (r.push t) := by
    rw [Reading.push_openParen ht hr]
    have hlen' : (r.classed .openParen r.next).stack.length < maxDepth := hlen
    rw [Reading.openList, if_pos hlen']
    exact ⟨rfl, hr, rfl⟩
  obtain ⟨new, hin, hnew⟩ :=
    reads_items (R := InList r.forms l r.stack) (fun _ _ _ h ht => inList_gap h ht)
      (fun v hv es r' ts' h hts' => by
        obtain ⟨e, hsame, he⟩ := hvs v hv r' h.2.1 (by rw [h.2.2]; rfl) ts' hts'
        exact ⟨e, inList_of_sameForms h hsame, he⟩)
      items [] _ hopen hitems
  rw [List.append_nil] at hin
  refine ⟨_, ?_, ofSexp_list ⟨l.start, c.stop, true, l.taint⟩
    (Recognition.ofList l.taint new).role hnew⟩
  have hclose := inList_close hin hr hc
  rw [List.reverse_reverse] at hclose
  rw [hpush]
  exact hclose

/-- On the deepest level only atoms are left, and a list of them is read flat. -/
theorem readsAs_flat {vs : List Value} {r : Reading} (hr : r.flat = none)
    (hlen : ¬ r.stack.length < maxDepth) (hsafe : ∀ v ∈ vs, v.isWireSafe = true)
    (hatoms : ∀ v ∈ vs, v.depth = 0) :
    ReadsAs r (list vs).pieces (list vs).normal := by
  intro ts hts
  obtain ⟨t, items, c, ht, hitems, hc, hpush⟩ := tokens_list hts
  let f : FlatList := ⟨t.start, r.next, 0, []⟩
  have hopen : InFlat r.forms f r.stack [] (r.push t) := by
    rw [Reading.push_openParen ht hr]
    have hlen' : ¬ (r.classed .openParen r.next).stack.length < maxDepth := hlen
    rw [Reading.openList, if_neg hlen']
    exact ⟨rfl, rfl, rfl⟩
  obtain ⟨new, hin, hnew⟩ :=
    reads_items (R := InFlat r.forms f r.stack) (fun _ _ _ h ht => inFlat_gap h ht)
      (fun v hv _ _ _ h hts' => inFlat_atom h (hsafe v hv) (hatoms v hv) hts')
      items [] _ hopen hitems
  rw [List.append_nil] at hin
  refine ⟨_, ?_, ofSexp_list ⟨f.start, c.stop, true, f.taint⟩ .plain hnew⟩
  have hclose := inFlat_close hin hr rfl hc
  rw [List.reverse_reverse] at hclose
  rw [hpush]
  exact hclose

/-- **The tokens of a value are read as one expression that stands for it**,
wherever there is room for its levels. -/
theorem readsAs_pieces (v : Value) :
    ∀ r : Reading, v.isWireSafe = true → r.flat = none →
      r.stack.length + v.depth ≤ maxDepth + 1 → ReadsAs r v.pieces v.normal := by
  induction v using written_induction with
  | atom v hatom =>
      intro r hsafe hr _
      rw [normal_atom hatom]
      exact readsAs_atom hsafe hatom hr
  | list vs ih =>
      intro r hsafe hr hroom
      rw [isWireSafe, areWireSafe_iff] at hsafe
      rw [depth] at hroom
      by_cases hlen : r.stack.length < maxDepth
      · refine readsAs_list hr hlen fun v hv r' hr' hlen' => ih v hv r' (hsafe v hv) hr' ?_
        have hdepth : v.depth ≤ depths vs := depths_le.1 (Nat.le_refl _) v hv
        omega
      · -- the stack is full, so that the elements have no levels of their own
        have hatoms : depths vs ≤ 0 := by omega
        exact readsAs_flat hr hlen hsafe fun v hv => Nat.le_zero.1 (depths_le.1 hatoms v hv)
  | record fs ih =>
      intro r hsafe hr hroom
      rw [pieces_record, normal_record]
      exact ih r (isWireSafe_record fs ▸ hsafe) hr (depth_record fs ▸ hroom)

/-- **The round trip**: the text of a value with safe names and at most
`maxDepth + 1` levels is one expression, which stands for the value in its
normal form. -/
theorem parse_encode (v : Value) (hsafe : v.isWireSafe = true)
    (hdepth : v.depth ≤ maxDepth + 1) :
    ∃ e, parse v.encode = [e] ∧ ofSexp e = v.normal := by
  have hroom : Reading.begin.stack.length + v.depth ≤ maxDepth + 1 := by
    rw [show Reading.begin.stack.length = 0 from rfl]
    omega
  obtain ⟨e, ⟨hforms, hstack, hflat, _⟩, he⟩ :=
    readsAs_pieces v .begin hsafe rfl hroom _ (tokenize_encode hsafe)
  refine ⟨e, ?_, he⟩
  -- nothing is left open, so closing what is open changes nothing
  have hflat' : (Reading.begin.pushAll (tokenize v.encode)).flat = none := hflat
  have hstack' : (Reading.begin.pushAll (tokenize v.encode)).stack = [] := hstack
  show (((Reading.begin.pushAll (tokenize v.encode)).closeAll _).forms).reverse = [e]
  rw [Reading.closeAll, hflat']
  simp only [hstack', List.foldl_nil]
  rw [hforms]
  rfl

/-- A call with an escaped string, a plist and empty parts: the two empty ones
read back as `nil`, and the record as a list. -/
theorem parse_encode_call :
    let v := call "swank:frob"
      [str "say \"\\\"", record [("id", int (-7)), ("rest", list [])], record []]
    v.isWireSafe = true ∧ v.depth ≤ maxDepth + 1 ∧
      ∃ e, parse v.encode = [e] ∧ ofSexp e = call "swank:frob"
        [str "say \"\\\"", list [keyword "id", int (-7), keyword "rest", nil], nil] := by
  intro v
  have hsafe : v.isWireSafe = true := by decide
  have hdepth : v.depth ≤ maxDepth + 1 := by decide
  refine ⟨hsafe, hdepth, ?_⟩
  obtain ⟨e, hparse, he⟩ := parse_encode v hsafe hdepth
  exact ⟨e, hparse, he.trans (by simp [v, call, normal, normals, fieldsNormal])⟩

end LispLink.Value
