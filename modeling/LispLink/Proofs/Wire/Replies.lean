/-
  LispLink.Proofs.Wire.Replies
  ────────────────────────────────
  **A REPLY IS ABOUT THE REQUEST THAT IT NAMES.**

  Whatever value the image answers with, the answer is read with the id that it
  was written with and with that value:

      (:return (:ok value) n)       the answer to n, with the value
      (:return (:abort why) n)      the answer to n, and why it was aborted

  and no payload at all is read as a reply to `n` unless a numeral stands in the
  place of the id that writes exactly `n`.  A number below zero, one too great
  for an integer, a fraction and a name are no ids, and none of them comes out as
  the id of some other request.
-/
import LispLink.Proofs.Value.Normal
import LispLink.Proofs.Wire.Messages
import LispLink.Wire.Request

namespace LispLink.Wire

open Number Source

/-! ## §1. Integer numerals. -/

/-- Whether a text writes that integer: decimal digits, perhaps behind a sign. -/
inductive IsNumeral : List Char → Int → Prop where
  | plain {ds : List Char} (hne : ds ≠ []) (hdigits : ∀ d ∈ ds, d.isDigit = true) :
      IsNumeral ds (Nat.ofDigitChars 10 ds 0)
  | plus {ds : List Char} (hne : ds ≠ []) (hdigits : ∀ d ∈ ds, d.isDigit = true) :
      IsNumeral ('+' :: ds) (Nat.ofDigitChars 10 ds 0)
  | minus {ds : List Char} (hne : ds ≠ []) (hdigits : ∀ d ∈ ds, d.isDigit = true) :
      IsNumeral ('-' :: ds) (-(Nat.ofDigitChars 10 ds 0 : Int))

theorem natOfDigits?_eq_some {cs : List Char} {n : Nat} (h : natOfDigits? cs = some n) :
    cs ≠ [] ∧ (∀ d ∈ cs, d.isDigit = true) ∧ n = Nat.ofDigitChars 10 cs 0 := by
  unfold natOfDigits? at h
  split at h
  · next hcs =>
      simp only [Bool.and_eq_true, Bool.not_eq_true', List.isEmpty_eq_false_iff,
        List.all_eq_true] at hcs
      cases h
      exact ⟨hcs.1, hcs.2, natOfDigits_eq cs⟩
  · cases h

/-- What is read as an integer is a numeral that writes it. -/
theorem isNumeral_of_intOfChars? {cs : List Char} {n : Int} (h : intOfChars? cs = some n) :
    IsNumeral cs n := by
  have hread : ∀ {ds : List Char} {m : Int},
      ((natOfDigits? ds).bind fun k => some (k : Int)) = some m →
        ds ≠ [] ∧ (∀ d ∈ ds, d.isDigit = true) ∧ m = Nat.ofDigitChars 10 ds 0 := by
    intro ds m hm
    obtain ⟨k, hk, hkm⟩ := Option.bind_eq_some_iff.1 hm
    cases hkm
    obtain ⟨hne, hdigits, rfl⟩ := natOfDigits?_eq_some hk
    exact ⟨hne, hdigits, rfl⟩
  unfold intOfChars? splitSign at h
  obtain ⟨m, hm, rfl⟩ := Option.map_eq_some_iff.1 h
  obtain ⟨hne, hdigits, rfl⟩ := hread hm
  revert hne hdigits
  split
  · exact .minus
  · exact .plus
  · exact .plain

/-- A numeral in the range of the integers is read as itself, so it does not wrap
around. -/
theorem isNumeral_of_int64OfChars? {cs : List Char} {n : Int64} (h : int64OfChars? cs = some n) :
    IsNumeral cs n.toInt := by
  unfold int64OfChars? at h
  obtain ⟨k, hk, hn⟩ := Option.bind_eq_some_iff.1 h
  split at hn
  · next hrange =>
      have hlt : k < 2 ^ 63 := by
        have hmax := Int64.toInt_maxValue
        omega
      cases hn
      rw [Int64.toInt_ofInt_of_le hrange.1 hlt]
      exact isNumeral_of_intOfChars? hk
  · cases hn

/-! ## §2. Where an integer comes from. -/

theorem isNumeral_of_ofWord {word : String} {n : Int64} (h : Value.ofWord word = .int n) :
    IsNumeral word.toList n.toInt := by
  unfold Value.ofWord at h
  dsimp only at h
  split at h
  · cases h
  · split at h
    · cases h
    · split at h
      · cases h
      · split at h
        · next hint =>
            cases h
            exact isNumeral_of_int64OfChars? hint
        · split at h <;> cases h

/-- Whether an expression is the numeral of that integer: one bare atom. -/
def WritesInt (e : Sexp) (n : Int) : Prop :=
  ∃ a, e = .atom a ∧ a.kind ≠ .string ∧ a.kind ≠ .unclosedString ∧ IsNumeral a.text.toList n

/-- **Only a numeral stands for an integer**, and only for the one that it writes. -/
theorem writesInt_of_ofSexp {e : Sexp} {n : Int64} (h : Value.ofSexp e = .int n) :
    WritesInt e n.toInt := by
  cases e with
  | atom a =>
      rw [Value.ofSexp, Value.ofAtom] at h
      split at h
      · cases h
      · cases h
      · next hstring hunclosed =>
          exact ⟨a, rfl, hstring, hunclosed, isNumeral_of_ofWord h⟩
  | list outline role es =>
      cases es with
      | nil => rw [Value.ofSexp] at h; cases h
      | cons e es => rw [Value.ofSexp] at h; cases h

/-! ## §3. The id of a reply. -/

/-- Whether a payload writes that integer in that place of its first form. -/
def WritesAt (payload : String) (place : Nat) (n : Int) : Prop :=
  ∃ outline role es e, (parse payload).head? = some (.list outline role es)
    ∧ es[place]? = some e ∧ WritesInt e n

/-- The place in which a reply has its id, and the id. -/
def Incoming.reply? : Incoming → Option (Nat × UInt64)
  | .answer id _ _ => some (2, id)
  | .invalidRequest id _ => some (1, id)
  | _ => none

theorem IsNumeral.unique {cs : List Char} {m n : Int} (hm : IsNumeral cs m)
    (hn : IsNumeral cs n) : m = n := by
  have hsign : ∀ {c : Char} {ds : List Char}, (∀ d ∈ c :: ds, d.isDigit = true) →
      c.isDigit = true := fun h => h _ List.mem_cons_self
  cases hm with
  | plain _ hdigits =>
      cases hn with
      | plain => rfl
      | plus => exact absurd (hsign hdigits) (by decide)
      | minus => exact absurd (hsign hdigits) (by decide)
  | plus =>
      cases hn with
      | plain _ hdigits => exact absurd (hsign hdigits) (by decide)
      | plus => rfl
  | minus =>
      cases hn with
      | plain _ hdigits => exact absurd (hsign hdigits) (by decide)
      | minus => rfl

theorem WritesAt.unique {payload : String} {place : Nat} {m n : Int}
    (hm : WritesAt payload place m) (hn : WritesAt payload place n) : m = n := by
  obtain ⟨o, r, es, e, hhead, he, a, rfl, _, _, hm⟩ := hm
  obtain ⟨o', r', es', e', hhead', he', a', rfl, _, _, hn⟩ := hn
  rw [hhead] at hhead'
  cases hhead'
  rw [he] at he'
  cases he'
  exact hm.unique hn

theorem ofSexps_eq_map (es : List Sexp) : Value.ofSexps es = es.map Value.ofSexp := by
  induction es with
  | nil => rw [Value.ofSexps, List.map_nil]
  | cons e es ih => rw [Value.ofSexps, List.map_cons, ih]

/-- An atom has no elements. -/
theorem elements_ofAtom (a : Atom) : (Value.ofAtom a).elements = [] := by
  have hword : ∀ word, (Value.ofWord word).elements = [] := by
    intro word
    unfold Value.ofWord
    dsimp only
    repeat' split
    all_goals rfl
  unfold Value.ofAtom
  split
  · rfl
  · rfl
  · exact hword a.text

/-- The elements of a value are what the elements of its list stand for. -/
theorem exists_list_of_elements {e : Sexp} {v : Value} {place : Nat}
    (h : (Value.ofSexp e).elements[place]? = some v) :
    ∃ outline role es e', e = .list outline role es
      ∧ es[place]? = some e' ∧ Value.ofSexp e' = v := by
  cases e with
  | atom a =>
      rw [Value.ofSexp, elements_ofAtom] at h
      cases h
  | list outline role es =>
      have helements : (Value.ofSexp (.list outline role es)).elements = es.map Value.ofSexp := by
        cases es with
        | nil =>
            rw [Value.ofSexp]
            rfl
        | cons e es =>
            rw [Value.ofSexp, ofSexps_eq_map]
            rfl
      rw [helements, List.getElem?_map, Option.map_eq_some_iff] at h
      obtain ⟨e', he', hv⟩ := h
      exact ⟨outline, role, es, e', rfl, he', hv⟩

/-- **A reply names the integer that its payload writes in the place of the id.** -/
theorem writesAt_of_isMessage {payload : String} {m : Incoming} (h : IsMessage payload m)
    {place : Nat} {id : UInt64} (hreply : m.reply? = some (place, id)) :
    WritesAt payload place id.toNat ∧ id ≤ maxId := by
  obtain ⟨v, hv, hsays⟩ := h
  obtain ⟨n, hn, hid⟩ : ∃ n : Int64, v.elements[place]? = some (.int n) ∧ n.toInt = id.toNat := by
    generalize v.elements = elements at hsays
    cases hsays <;> cases hreply
    case answer hid => exact ⟨_, rfl, hid⟩
    case invalidRequest hid => exact ⟨_, rfl, hid⟩
  obtain ⟨e, hhead, rfl⟩ := Option.map_eq_some_iff.1 hv
  obtain ⟨outline, role, es, e', rfl, he', hint⟩ := exists_list_of_elements hn
  refine ⟨⟨outline, role, es, e', hhead, he', ?_⟩, ?_⟩
  · rw [← hid]
    exact writesInt_of_ofSexp hint
  · have hlt := n.toInt_lt
    have hmax : maxId.toNat = 9223372036854775807 := rfl
    rw [UInt64.le_iff_toNat_le]
    omega

/-! ## §4. Written replies. -/

/-- The reply to the request of that id, with a status and a value. -/
def replyText (status : String) (v : Value) (id : Nat) : String :=
  "(:return (:" ++ status ++ " " ++ v.encode ++ ") " ++ toString id ++ ")"

theorem replyText_eq_encode (status : String) (v : Value) {id : Nat} {n : Int64}
    (hn : n.toInt = id) : replyText status v id
      = (Value.list [.keyword "return", .list [.keyword status, v], .int n]).encode := by
  have hdecimal : Value.intChars n.toInt = (toString id).toList := by
    rw [hn, Value.intChars, if_neg (by omega), Int.natAbs_natCast, List.nil_append,
      Nat.toString_eq_ofList_toDigits, String.toList_ofList]
  apply String.toList_injective
  simp [replyText, Value.encode, Value.chars, Value.itemsChars, hdecimal]

theorem text?_normal (v : Value) : v.normal.text? = v.text? := by
  cases v with
  | list vs => cases vs <;> rw [Value.normal] <;> rfl
  | record fs => cases fs <;> rw [Value.normal] <;> rfl
  | _ => rfl

/-- **A written reply says what it was written from.** -/
theorem isMessage_replyText {status : String} {v : Value} {id : UInt64} {st : Status}
    (hname : Value.IsName status) (hsafe : v.isWireSafe = true) (hdepth : v.depth < maxDepth)
    (hid : id ≤ maxId) (hst : Reports (.keyword status) (some v.normal) st) :
    IsMessage (replyText status v id.toNat) (.answer id st v.normal) := by
  have hn : (Int64.ofNat id.toNat).toInt = id.toNat :=
    Int64.toInt_ofNat_of_lt (Nat.lt_succ_of_le (UInt64.le_iff_toNat_le.1 hid))
  generalize Int64.ofNat id.toNat = n at hn
  have houtcome : (Value.list [.keyword status, v]).isWireSafe = true := by
    simpa [Value.isWireSafe] using ⟨hname, hsafe⟩
  have hlevels : (Value.list [.keyword status, v]).depth ≤ maxDepth := by
    simpa [Value.depth, Value.depths] using Nat.succ_le_of_lt hdepth
  have hnumber : (Value.int n).depth ≤ maxDepth := Nat.zero_le maxDepth
  have hreturn : Value.IsName "return" := by decide
  obtain ⟨e, hparse, he⟩ := Value.parse_message hreturn
    (List.forall_mem_cons.2 ⟨houtcome, List.forall_mem_singleton.2 rfl⟩)
    (List.forall_mem_cons.2 ⟨hlevels, List.forall_mem_singleton.2 hnumber⟩)
  rw [← replyText_eq_encode status v hn] at hparse
  refine ⟨Value.ofSexp e, Value.ofText?_of_parse hparse, ?_⟩
  rw [he]
  exact .answer (by decide) hst hn

/-- What a status other than `ok` says of the request: the detail if that is text,
and else the status itself. -/
theorem reports_abort {status : String} (detail : Value)
    (hok : Text.sameLetters status "ok" = false) :
    Reports (.keyword status) (some detail) (.abort (detail.text?.getD (":" ++ status))) := by
  cases htext : detail.text? with
  | some reason => exact .told hok htext
  | none =>
      have hprinted : (Value.keyword status).encode = ":" ++ status := by
        apply String.toList_injective
        simp [Value.encode, Value.chars]
      rw [Option.getD_none, ← hprinted]
      exact .untold hok fun d hd => by
        cases hd
        exact htext

/-- **Replies keep their ids.**  An answer that is written with any id that the
editor has given out, any status and any value that survives being written is read
as the answer to that request, with that status and value.  And whatever a payload
is, it is read as a reply to a request only if the id of the request is the integer
that it writes in the place of the id. -/
theorem replies_keep_ids :
    (∀ (id : UInt64) (v : Value), id ≤ maxId → v.isWireSafe = true → v.depth ≤ 255 →
        Incoming.ofPayload? (replyText "ok" v id.toNat) = some (.answer id .ok v.normal)
        ∧ ∀ status, Value.IsName status → Text.sameLetters status "ok" = false →
          Incoming.ofPayload? (replyText status v id.toNat)
            = some (.answer id (.abort (v.text?.getD (":" ++ status))) v.normal))
    ∧ ∀ payload m place id, Incoming.ofPayload? payload = some m →
        m.reply? = some (place, id) →
        id ≤ maxId ∧ ∀ n, WritesAt payload place n ↔ n = id.toNat := by
  refine ⟨fun id v hid hsafe hdepth => ⟨?_, fun status hname hok => ?_⟩, ?_⟩
  · have hok : Reports (.keyword "ok") (some v.normal) .ok := .ok (by decide)
    exact Incoming.ofPayload?_eq_some_iff.2
      (isMessage_replyText (by decide) hsafe (Nat.lt_succ_of_le hdepth) hid hok)
  · have habort := reports_abort v.normal hok
    rw [text?_normal] at habort
    exact Incoming.ofPayload?_eq_some_iff.2
      (isMessage_replyText hname hsafe (Nat.lt_succ_of_le hdepth) hid habort)
  · intro payload m place id hm hreply
    obtain ⟨hwrites, hid⟩ :=
      writesAt_of_isMessage (Incoming.ofPayload?_eq_some_iff.1 hm) hreply
    exact ⟨hid, fun n => ⟨fun hn => hn.unique hwrites, fun hn => hn ▸ hwrites⟩⟩

/-- The greatest id, with a record and with a status that has to explain itself. -/
theorem replies_keep_ids_greatest :
    let id : UInt64 := 9223372036854775807
    let v := Value.list [.keyword "x", .int (-1)]
    Incoming.ofPayload? "(:return (:ok (:x -1)) 9223372036854775807)" = some (.answer id .ok v)
      ∧ Incoming.ofPayload? "(:return (:abort (:x -1)) 9223372036854775807)"
        = some (.answer id (.abort ":abort") v)
      ∧ ∀ n, WritesAt "(:return (:ok (:x -1)) 9223372036854775807)" 2 n ↔ n = id.toNat := by
  intro id v
  have hokText : replyText "ok" (.record [("x", .int (-1))]) id.toNat
      = "(:return (:ok (:x -1)) 9223372036854775807)" := by decide
  have habortText : replyText "abort" (.record [("x", .int (-1))]) id.toNat
      = "(:return (:abort (:x -1)) 9223372036854775807)" := by decide
  have hnormal : (Value.record [("x", .int (-1))]).normal = v := by
    simp [v, Value.normal, Value.fieldsNormal]
  obtain ⟨hwritten, hread⟩ := replies_keep_ids
  obtain ⟨hok, habort⟩ := hwritten id (.record [("x", .int (-1))]) (by decide)
    (by decide) (by decide)
  rw [hokText, hnormal] at hok
  have habort := habort "abort" (by decide) (by decide)
  rw [habortText, hnormal] at habort
  exact ⟨hok, habort, (hread _ _ 2 id hok rfl).2⟩

end LispLink.Wire
