/-
  LispLink.Proofs.Wire.Layout
  ────────────────────────────────
  **HOW A MESSAGE IS LAID OUT MEANS NOTHING.**

  The value of an expression is made from the kinds and the texts of its tokens, not
  from where they stand; and trivia is not read.  So two texts the other tokens of
  which are the same have the same values, and if they are payloads, they are the
  same message.
-/
import LispLink.Proofs.Source.Lexing
import LispLink.Proofs.Source.Trivia
import LispLink.Wire.Incoming

namespace LispLink

open Source

/-! ## §1. Values. -/

namespace Value

mutual

/-- **The value of an expression is the same elsewhere.** -/
theorem ofSexp_relocated (m : Relocation) (e : Sexp) : ofSexp (e.relocated m) = ofSexp e := by
  cases e with
  | atom a => rfl
  | list o role es =>
      cases es with
      | nil => rfl
      | cons e es =>
          show list (ofSexp (e.relocated m) :: ofSexps (Sexp.allRelocated m es)) = _
          rw [ofSexp_relocated m e, ofSexps_allRelocated m es]
          rfl

theorem ofSexps_allRelocated (m : Relocation) (es : List Sexp) :
    ofSexps (Sexp.allRelocated m es) = ofSexps es := by
  cases es with
  | nil => rfl
  | cons e es =>
      show ofSexp (e.relocated m) :: ofSexps (Sexp.allRelocated m es) = _
      rw [ofSexp_relocated m e, ofSexps_allRelocated m es]
      rfl

end

theorem map_ofSexp_relocated (m : Relocation) (es : List Sexp) :
    (es.map (Sexp.relocated m)).map ofSexp = es.map ofSexp := by
  rw [List.map_map]
  exact List.map_congr_left fun e _ => ofSexp_relocated m e

end Value

/-! ## §2. Tokens without places. -/

/-- All tokens at the origin. -/
def Source.Relocation.nowhere : Relocation :=
  ⟨id, fun _ => .origin, fun _ => .origin, fun _ => .origin, fun _ _ h => h⟩

theorem Source.stopOf_nowhere (ts : List Token) :
    stopOf (ts.map (Token.relocated .nowhere)) = .origin := by
  unfold stopOf
  rw [List.getLast?_map]
  cases ts.getLast? <;> rfl

/-- **Tokens of the same kinds and texts have the same values.** -/
theorem Value.of_pieces {ts us : List Token} (h : ts.map Token.piece = us.map Token.piece) :
    (read ts).forms.map ofSexp = (read us).forms.map ofSexp := by
  -- without places the tokens are the same
  have hnowhere : ∀ ts : List Token, ts.map (Token.relocated .nowhere)
      = (ts.map Token.piece).map fun p => ⟨p.kind, .origin, .origin, p.text⟩ := by
    intro ts
    rw [List.map_map]
    rfl
  have hvalues : ∀ ts : List Token, (read (ts.map (Token.relocated .nowhere))).forms.map ofSexp
      = (read ts).forms.map ofSexp := by
    intro ts
    have hread := read_relocated (m := .nowhere) (Relocation.spreads_map ts fun _ => rfl)
      (stopOf_nowhere ts)
    rw [hread.1, map_ofSexp_relocated]
  rw [← hvalues ts, ← hvalues us, hnowhere, hnowhere, h]

/-- The values of token lists that differ in trivia and places only. -/
theorem Value.of_pieces_withoutTrivia {ts us : List Token}
    (h : (withoutTrivia ts).map Token.piece = (withoutTrivia us).map Token.piece) :
    (read ts).forms.map ofSexp = (read us).forms.map ofSexp := by
  rw [(read_withoutTrivia ts).1, (read_withoutTrivia us).1, map_ofSexp_relocated,
    map_ofSexp_relocated]
  exact of_pieces h

/-! ## §3. Messages. -/

/-- What the trivia among these tokens does not change. -/
structure Source.IgnoresTrivia (ts : List Token) : Prop where
  /-- The forms have the same shape, the same roles with the names that are in them,
  and the same taints, and the same lists of them are closed. -/
  forms : (read ts).forms = (read (withoutTrivia ts)).forms.map (Sexp.relocated (withTrivia ts))
  bindings : ∀ e : Sexp, (e.relocated (withTrivia ts)).bindings
    = e.bindings.map (Sexp.Binding.relocated (withTrivia ts))
  /-- The tokens that are left come in the same order. -/
  order : ∀ i j, i < j → placeIn ts i < placeIn ts j
  tokens : ∀ i, ts[placeIn ts i]? = (withoutTrivia ts)[i]?
  classes : ∀ i < (withoutTrivia ts).length,
    (read ts).classes[placeIn ts i]? = (read (withoutTrivia ts)).classes[i]?
  values : (read ts).forms.map Value.ofSexp = (read (withoutTrivia ts)).forms.map Value.ofSexp

/-- **Trivia changes nothing**: neither what is read from any tokens, but for indices
and for the end of lists that are not closed, nor which message a payload is. -/
theorem Wire.trivia_ignored :
    (∀ ts, Source.IgnoresTrivia ts)
      ∧ ∀ payload payload' : String,
        (withoutTrivia (tokenize payload)).map Token.piece
            = (withoutTrivia (tokenize payload')).map Token.piece →
          (parse payload).map Value.ofSexp = (parse payload').map Value.ofSexp
            ∧ Incoming.ofPayload? payload = Incoming.ofPayload? payload' := by
  refine ⟨fun ts => ?_, ?_⟩
  · obtain ⟨hforms, hclasses⟩ := read_withoutTrivia ts
    refine ⟨hforms, Sexp.bindings_relocated, fun _ _ => placeIn_lt ts, getElem?_placeIn ts,
      hclasses, ?_⟩
    rw [hforms, Value.map_ofSexp_relocated]
  · intro payload payload' h
    have hvalues : (parse payload).map Value.ofSexp = (parse payload').map Value.ofSexp :=
      Value.of_pieces_withoutTrivia h
    refine ⟨hvalues, ?_⟩
    have htext : ∀ text, Value.ofText? text = ((parse text).map Value.ofSexp).head? :=
      fun text => List.head?_map.symm
    rw [Incoming.ofPayload?, Incoming.ofPayload?, htext, htext, hvalues]

/-- A message on one line, and the same message with comments and with more space. -/
theorem Wire.trivia_ignored_ping :
    let payload := "(:ping 1 2)"
    let payload' := " ( :ping ; a comment\n 1 #| another |#2 )"
    (withoutTrivia (tokenize payload)).map Token.piece
        = (withoutTrivia (tokenize payload')).map Token.piece
      ∧ Incoming.ofPayload? payload = Incoming.ofPayload? payload' := by
  intro payload payload'
  have h : (withoutTrivia (tokenize payload)).map Token.piece
      = (withoutTrivia (tokenize payload')).map Token.piece := by decide
  exact ⟨h, (trivia_ignored.2 payload payload' h).2⟩

end LispLink
