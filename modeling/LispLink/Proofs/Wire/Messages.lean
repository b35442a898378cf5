/-
  LispLink.Proofs.Wire.Messages
  ────────────────────────────────
  **WHAT THE IMAGE CAN SAY.**

  The messages of the image as forms, kind by kind, with what each of them must
  hold and what it may hold besides:

      (:return (:ok value) id)          (:return (status detail) id)
      (:debug thread level condition restarts frames continuations)
      (:debug-activate thread level)    (:debug-return thread level)
      (:write-string text)              (:new-package name prompt)
      (:ping thread tag)                (:invalid-rpc id text)

  Kinds are told in any case, and more elements than these do no harm.  Whatever
  has another form is no message: an element that is missing or of another type,
  an id that is negative or too great for an integer.  Reading a payload finds
  exactly the messages (`ofPayload?_eq_some_iff`).
-/
import LispLink.Wire.Incoming

namespace LispLink.Wire

open Reply

/-! ## §1. The forms. -/

/-- The status that an answer gives its request: that it came out well, or else why
it did not, by its detail if that is text and by the status itself if not. -/
inductive Reports : Value → Option Value → Status → Prop where
  | ok {status detail} : status.isKeyword "ok" = true → Reports status detail .ok
  | told {status detail reason} : status.isKeyword "ok" = false →
      detail.text? = some reason → Reports status (some detail) (.abort reason)
  | untold {status detail} : status.isKeyword "ok" = false →
      (∀ d ∈ detail, d.text? = none) → Reports status detail (.abort status.encode)

/-- Whether the elements of a list are a message of the image. -/
inductive Says : List Value → Incoming → Prop where
  | answer {k status rest n id st more} : Text.sameLetters k "return" = true →
      Reports status rest.head? st → n.toInt = id.toNat →
      Says (.keyword k :: .list (status :: rest) :: .int n :: more)
        (.answer id st (rest.head?.getD .nil))
  | debuggerEntered {k thread level condition texts more} :
      Text.sameLetters k "debug" = true → condition.list? = some texts →
      Says (.keyword k :: .int thread :: .int level :: condition :: more)
        (.debuggerEntered
          { thread, level
            condition := texts.filterMap Value.text?
            restarts := ((more[0]?.map Value.elements).getD []).filterMap Restart.ofValue?
            frames := (more[1]?.map StackFrame.listOfValue).getD []
            continuations := ((more[2]?.map Value.elements).getD []).filterMap Value.int? })
  | debuggerActivated {k thread level more} : Text.sameLetters k "debug-activate" = true →
      Says (.keyword k :: .int thread :: .int level :: more) (.debuggerActivated thread level)
  | debuggerLeft {k thread level more} : Text.sameLetters k "debug-return" = true →
      Says (.keyword k :: .int thread :: .int level :: more) (.debuggerLeft thread level)
  | output {k v text more} : Text.sameLetters k "write-string" = true → v.text? = some text →
      Says (.keyword k :: v :: more) (.output text)
  | packageChanged {k v name more} : Text.sameLetters k "new-package" = true →
      v.text? = some name →
      Says (.keyword k :: v :: more)
        (.packageChanged name ((more.head?.bind Value.text?).getD ""))
  | ping {k thread tag more} : Text.sameLetters k "ping" = true →
      Says (.keyword k :: thread :: tag :: more) (.ping thread tag)
  | invalidRequest {k n id more} : Text.sameLetters k "invalid-rpc" = true →
      n.toInt = id.toNat →
      Says (.keyword k :: .int n :: more)
        (.invalidRequest id ((more.head?.bind Value.text?).getD ""))

/-- Whether the first form of a payload is that message. -/
def IsMessage (payload : String) (m : Incoming) : Prop :=
  ∃ v, Value.ofText? payload = some v ∧ Says v.elements m

namespace Incoming

theorem int?_eq_some_iff {v : Value} {n : Int64} : v.int? = some n ↔ v = .int n := by
  cases v <;> simp [Value.int?]

/-- **The id of a request is the integer itself**, if that is not negative. -/
theorem requestId?_eq_some_iff {v : Value} {id : UInt64} :
    requestId? v = some id ↔ ∃ n, v = .int n ∧ n.toInt = id.toNat := by
  have hid : ∀ n : Int64,
      (if 0 ≤ n then some n.toUInt64 else none) = some id ↔ n.toInt = id.toNat := by
    intro n
    by_cases hn : 0 ≤ n
    · have hnat : (n.toUInt64.toNat : Int) = n.toInt := by
        have hpos : 0 ≤ n.toInt := Int64.le_iff_toInt_le.1 hn
        rw [Int64.toNat_toUInt64_of_le hn, ← Int64.toNat_toInt, Int.toNat_of_nonneg hpos]
      rw [if_pos hn, Option.some_inj, ← UInt64.toNat_inj, ← hnat, Int.natCast_inj]
    · have hneg : n.toInt < 0 := Int.not_le.1 fun h => hn (Int64.le_iff_toInt_le.2 h)
      rw [if_neg hn]
      refine iff_of_false nofun ?_
      omega
  cases v <;> simp [requestId?, Value.int?, hid]

theorem reports_statusOf (status : Value) (detail : Option Value) :
    Reports status detail (statusOf status detail) := by
  unfold statusOf abortReason
  cases hok : status.isKeyword "ok" with
  | true => exact .ok hok
  | false =>
      cases hreason : detail.bind Value.text? with
      | none =>
          exact .untold hok fun d hd => by
            rw [hd] at hreason
            exact hreason
      | some reason =>
          obtain ⟨d, rfl, hd⟩ := Option.bind_eq_some_iff.1 hreason
          exact .told hok hd

/-- There is one status for an answer. -/
theorem statusOf_of_reports {status : Value} {detail : Option Value} {st : Status}
    (h : Reports status detail st) : statusOf status detail = st := by
  unfold statusOf abortReason
  cases h with
  | ok hok => rw [if_pos hok]
  | told hok hd => simp [hok, hd]
  | untold hok hnone =>
      have hbind : detail.bind Value.text? = none := Option.bind_eq_none_iff.2 hnone
      simp [hok, hbind]

/-! ## §3. Reading the forms. -/

theorem ofValue?_of_kind {v : Value} {k name : String} {args : List Value}
    (hv : v.elements = .keyword k :: args) (hk : Text.sameLetters k name = true)
    (hname : String.ofList (Text.foldLetters name) = name) :
    ofValue? v = ofArguments? name args := by
  have hfold : Text.foldLetters k = Text.foldLetters name := Text.sameLetters_iff.1 hk
  rw [ofValue?, hv]
  dsimp only
  rw [hfold, hname]

/-- A message is read as what it says. -/
theorem ofValue?_of_says {v : Value} {m : Incoming} (h : Says v.elements m) :
    ofValue? v = some m := by
  generalize hv : v.elements = elements at h
  cases h with
  | answer hk hst hid =>
      have hn := requestId?_eq_some_iff.2 ⟨_, rfl, hid⟩
      rw [ofValue?_of_kind hv hk (by decide)]
      simp [ofArguments?, answer?, hn, Value.list?, statusOf_of_reports hst]
  | debuggerEntered hk hcondition =>
      rw [ofValue?_of_kind hv hk (by decide)]
      simp [ofArguments?, DebuggerState.ofArguments?, hcondition, Value.int?]
  | debuggerActivated hk =>
      rw [ofValue?_of_kind hv hk (by decide)]
      simp [ofArguments?, threadLevel?, Value.int?]
  | debuggerLeft hk =>
      rw [ofValue?_of_kind hv hk (by decide)]
      simp [ofArguments?, threadLevel?, Value.int?]
  | output hk htext =>
      rw [ofValue?_of_kind hv hk (by decide)]
      simp [ofArguments?, htext]
  | packageChanged hk hname =>
      rw [ofValue?_of_kind hv hk (by decide)]
      simp [ofArguments?, hname, List.head?_eq_getElem?]
  | ping hk =>
      rw [ofValue?_of_kind hv hk (by decide)]
      rfl
  | invalidRequest hk hid =>
      have hn := requestId?_eq_some_iff.2 ⟨_, rfl, hid⟩
      rw [ofValue?_of_kind hv hk (by decide)]
      simp [ofArguments?, hn, List.head?_eq_getElem?]

theorem says_of_answer? {k : String} {args : List Value} {m : Incoming}
    (hk : Text.sameLetters k "return" = true) (h : answer? args = some m) :
    Says (.keyword k :: args) m := by
  match args, h with
  | outcome :: i :: more, h =>
      simp only [answer?, Option.bind_eq_bind, Option.bind_eq_some_iff] at h
      obtain ⟨id, hid, elements, hlist, h⟩ := h
      obtain ⟨n, rfl, hn⟩ := requestId?_eq_some_iff.1 hid
      cases elements with
      | nil => cases h
      | cons status rest =>
          have houtcome : outcome = .list (status :: rest) := by
            cases outcome with
            | list items => exact congrArg Value.list (Option.some_inj.1 hlist)
            | _ => cases hlist
          cases h
          rw [houtcome]
          exact .answer hk (reports_statusOf status rest.head?) hn

theorem says_of_debugger {k : String} {args : List Value} {state : DebuggerState}
    (hk : Text.sameLetters k "debug" = true) (h : DebuggerState.ofArguments? args = some state) :
    Says (.keyword k :: args) (.debuggerEntered state) := by
  match args, h with
  | thread :: level :: condition :: more, h =>
      simp only [DebuggerState.ofArguments?, Option.bind_eq_bind, Option.bind_eq_some_iff] at h
      obtain ⟨texts, htexts, n, hthread, l, hlevel, h⟩ := h
      obtain rfl := int?_eq_some_iff.1 hthread
      obtain rfl := int?_eq_some_iff.1 hlevel
      cases h
      exact .debuggerEntered hk htexts

theorem eq_ints_of_threadLevel? {args : List Value} {thread level : Int64}
    (h : threadLevel? args = some (thread, level)) :
    ∃ more, args = .int thread :: .int level :: more := by
  match args, h with
  | first :: second :: more, h =>
      simp only [threadLevel?, Option.bind_eq_bind, Option.bind_eq_some_iff] at h
      obtain ⟨thread, hthread, level, hlevel, h⟩ := h
      cases h
      rw [int?_eq_some_iff.1 hthread, int?_eq_some_iff.1 hlevel]
      exact ⟨more, rfl⟩

theorem eq_cons_of_getElem? {args : List Value} {v : Value} (h : args[0]? = some v) :
    ∃ more, args = v :: more := by
  cases args with
  | nil => cases h
  | cons a more =>
      cases h
      exact ⟨more, rfl⟩

/-- What is read as a message says it. -/
theorem says_of_ofArguments? {k : String} {args : List Value} {m : Incoming}
    (h : ofArguments? (String.ofList (Text.foldLetters k)) args = some m) :
    Says (.keyword k :: args) m := by
  have hkind : ∀ name, String.ofList (Text.foldLetters k) = name →
      Text.foldLetters name = name.toList → Text.sameLetters k name = true := by
    intro name heq hname
    rw [Text.sameLetters_iff, hname, ← heq, String.toList_ofList]
  generalize hk : String.ofList (Text.foldLetters k) = kind at h
  unfold ofArguments? at h
  split at h
  · exact says_of_answer? (hkind _ hk (by decide)) h
  · obtain ⟨state, hstate, rfl⟩ := Option.map_eq_some_iff.1 h
    exact says_of_debugger (hkind _ hk (by decide)) hstate
  · obtain ⟨⟨thread, level⟩, hargs, rfl⟩ := Option.map_eq_some_iff.1 h
    obtain ⟨more, rfl⟩ := eq_ints_of_threadLevel? hargs
    exact .debuggerActivated (hkind _ hk (by decide))
  · obtain ⟨⟨thread, level⟩, hargs, rfl⟩ := Option.map_eq_some_iff.1 h
    obtain ⟨more, rfl⟩ := eq_ints_of_threadLevel? hargs
    exact .debuggerLeft (hkind _ hk (by decide))
  · obtain ⟨text, htext, rfl⟩ := Option.map_eq_some_iff.1 h
    obtain ⟨v, hv, htext⟩ := Option.bind_eq_some_iff.1 htext
    obtain ⟨more, rfl⟩ := eq_cons_of_getElem? hv
    exact .output (hkind _ hk (by decide)) htext
  · obtain ⟨name, hname, rfl⟩ := Option.map_eq_some_iff.1 h
    obtain ⟨v, hv, hname⟩ := Option.bind_eq_some_iff.1 hname
    obtain ⟨more, rfl⟩ := eq_cons_of_getElem? hv
    rw [List.getElem?_cons_succ, ← List.head?_eq_getElem?]
    exact .packageChanged (hkind _ hk (by decide)) hname
  · split at h
    · cases h
      exact .ping (hkind _ hk (by decide))
    · cases h
  · obtain ⟨id, hid, rfl⟩ := Option.map_eq_some_iff.1 h
    obtain ⟨v, hv, hid⟩ := Option.bind_eq_some_iff.1 hid
    obtain ⟨more, rfl⟩ := eq_cons_of_getElem? hv
    obtain ⟨n, rfl, hn⟩ := requestId?_eq_some_iff.1 hid
    rw [List.getElem?_cons_succ, ← List.head?_eq_getElem?]
    exact .invalidRequest (hkind _ hk (by decide)) hn
  · cases h

theorem says_of_ofValue? {v : Value} {m : Incoming} (h : ofValue? v = some m) :
    Says v.elements m := by
  unfold ofValue? at h
  split at h
  · next hv =>
      rw [hv]
      exact says_of_ofArguments? h
  · cases h

/-- **A payload is read as the message that its first form says**, and as none if
that says none. -/
theorem ofPayload?_eq_some_iff {payload : String} {m : Incoming} :
    ofPayload? payload = some m ↔ IsMessage payload m := by
  unfold ofPayload? IsMessage
  rw [Option.bind_eq_some_iff]
  constructor
  · rintro ⟨v, hv, h⟩
    exact ⟨v, hv, says_of_ofValue? h⟩
  · rintro ⟨v, hv, h⟩
    exact ⟨v, hv, ofValue?_of_says h⟩

/-- A complaint about a request that cannot exist, and an answer without an id. -/
example : ofPayload? "(:invalid-rpc -1 \"x\")" = none ∧ ofPayload? "(:return (:ok 1))" = none := by
  decide

end Incoming

end LispLink.Wire
