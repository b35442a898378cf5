/-
  LispLink.Proofs.Value.Lookup
  ────────────────────────────────
  **LOOKING UP A KEY SURVIVES THE WIRE.**

  A record is searched field by field.  What it reads back as is a list, which is
  searched in steps of two elements:

      :k₁ v₁ :k₂ v₂ …    key, value, key, value, …

  Every field takes one step, so the two searches stay abreast whatever the values
  are: one that is a keyword stands where no key is looked for, and one that was an
  empty record is still one element.  Both find the first field of the name, up to
  the case of ASCII letters.
-/
import LispLink.Proofs.Value.Normal

namespace LispLink.Value

open Source

/-! ## §1. The first field of a name. -/

/-- Whether a field is the first one of that name, whatever the case of its ASCII
letters. -/
def IsFirstField (name : String) (fs : List (String × Value)) (f : String × Value) : Prop :=
  ∃ before after, fs = before ++ f :: after ∧ Text.sameLetters f.1 name = true
    ∧ ∀ g ∈ before, Text.sameLetters g.1 name = false

section

variable {name : String} {fs : List (String × Value)}

/-- Searching a record finds the value of the first field of the name. -/
theorem lookupFields_eq_some_iff {v : Value} :
    lookupFields name fs = some v ↔ ∃ key, IsFirstField name fs (key, v) := by
  rw [lookupFields, Option.map_eq_some_iff]
  constructor
  · rintro ⟨⟨key, _⟩, hfind, rfl⟩
    obtain ⟨hname, before, after, hfs, hbefore⟩ := List.find?_eq_some_iff_append.1 hfind
    exact ⟨key, before, after, hfs, hname, fun g hg => by simpa using hbefore g hg⟩
  · rintro ⟨key, before, after, hfs, hname, hbefore⟩
    refine ⟨(key, v), List.find?_eq_some_iff_append.2 ⟨hname, before, after, hfs, ?_⟩, rfl⟩
    exact fun g hg => by simpa using hbefore g hg

theorem lookupFields_cons (key : String) (v : Value) :
    lookupFields name ((key, v) :: fs)
      = if Text.sameLetters key name then some v else lookupFields name fs := by
  rw [lookupFields, List.find?_cons, lookupFields]
  cases Text.sameLetters key name <;> rfl

/-! ## §2. The same search in what a record reads back as. -/

/-- The two searches take their steps together: a field is one key and one value of
the list. -/
theorem lookupItems_fieldsNormal (name : String) (fs : List (String × Value)) :
    lookupItems name (fieldsNormal fs) = (lookupFields name fs).map normal := by
  induction fs with
  | nil =>
      rw [fieldsNormal, lookupItems]
      rfl
  | cons f fs ih =>
      obtain ⟨key, v⟩ := f
      rw [fieldsNormal, lookupItems, isKeyword, lookupFields_cons, ih]
      cases Text.sameLetters key name <;> rfl

/-- **A record and its normal form answer every name alike**, up to the normal form
of the answer. -/
theorem get?_normal_record (name : String) (fs : List (String × Value)) :
    (record fs).normal.get? name = ((record fs).get? name).map normal := by
  rw [get?, ← lookupItems_fieldsNormal]
  cases fs with
  | nil => rfl
  | cons f fs =>
      obtain ⟨key, v⟩ := f
      rw [normal, get?, fieldsNormal]

theorem fieldsWireSafe_iff :
    fieldsWireSafe fs = true ↔ ∀ f ∈ fs, IsName f.1 ∧ f.2.isWireSafe = true := by
  induction fs with
  | nil => simp [fieldsWireSafe]
  | cons f fs ih =>
      obtain ⟨key, v⟩ := f
      simp [fieldsWireSafe, ih]

/-! ## §3. Over the wire. -/

/-- How a name is answered by a record and by a value that came back for it. -/
structure AnswersAlike (fs : List (String × Value)) (back : Value) (name : String) : Prop where
  /-- What is missing on one side is missing on the other. -/
  missing : back.get? name = none ↔ (record fs).get? name = none
  /-- The record gives the value of the first field of the name. -/
  sent : ∀ v, (record fs).get? name = some v ↔ ∃ key, IsFirstField name fs (key, v)
  /-- The other side gives the normal form of that same field's value. -/
  received : ∀ w, back.get? name = some w
    ↔ ∃ key v, IsFirstField name fs (key, v) ∧ w = v.normal

theorem answersAlike_normal (fs : List (String × Value)) (name : String) :
    AnswersAlike fs (record fs).normal name := by
  have hget := get?_normal_record name fs
  have hsent (v : Value) : (record fs).get? name = some v
      ↔ ∃ key, IsFirstField name fs (key, v) := lookupFields_eq_some_iff
  refine ⟨?_, hsent, fun w => ?_⟩
  · rw [hget, Option.map_eq_none_iff]
  · rw [hget, Option.map_eq_some_iff]
    constructor
    · rintro ⟨v, hv, rfl⟩
      obtain ⟨key, hfirst⟩ := (hsent v).1 hv
      exact ⟨key, v, hfirst, rfl⟩
    · rintro ⟨key, v, hfirst, rfl⟩
      exact ⟨v, (hsent v).2 ⟨key, hfirst⟩, rfl⟩

/-- **Looking up a key survives the wire.**  The text of a record with names for
keys, with values that survive being written and with at most `maxDepth + 1` levels
is one expression.  Its value answers every name as the record does: with nothing,
or with the normal form of the value of the first field of that name. -/
theorem lookup_survives (hkeys : ∀ f ∈ fs, IsName f.1)
    (hvalues : ∀ f ∈ fs, f.2.isWireSafe = true) (hdepth : (record fs).depth ≤ maxDepth + 1) :
    ∃ e, parse (record fs).encode = [e] ∧ ∀ name, AnswersAlike fs (ofSexp e) name := by
  have hsafe : (record fs).isWireSafe = true := by
    rw [isWireSafe, fieldsWireSafe_iff]
    exact fun f hf => ⟨hkeys f hf, hvalues f hf⟩
  have hroom : Reading.begin.stack.length + (record fs).depth ≤ maxDepth + 1 := by
    rw [show Reading.begin.stack.length = 0 from rfl]
    omega
  have hreads := readsAs_pieces (record fs) .begin hsafe rfl hroom
  rw [← tokenize_encode hsafe] at hreads
  obtain ⟨e, hparse, he⟩ := parse_of_readsAs hreads
  refine ⟨e, hparse, fun name => ?_⟩
  rw [he]
  exact answersAlike_normal fs name

/-- A value that is the keyword looked for, the key in two spellings, an empty record
behind the first of them, and a name that only a value has. -/
theorem lookup_survives_duplicates :
    let fs := [("b", keyword "a"), ("A", record []), ("a", int 2),
      ("c", record [("d", list [keyword "b"])])]
    (∀ f ∈ fs, IsName f.1) ∧ (∀ f ∈ fs, f.2.isWireSafe = true)
      ∧ (record fs).depth ≤ maxDepth + 1
      ∧ (record fs).get? "a" = some (record []) ∧ (record fs).get? "d" = none
      ∧ ∃ e, parse (record fs).encode = [e] ∧ (ofSexp e).get? "a" = some nil
        ∧ (ofSexp e).get? "B" = some (keyword "a") ∧ (ofSexp e).get? "d" = none := by
  intro fs
  have hkeys : ∀ f ∈ fs, IsName f.1 := by decide
  have hvalues : ∀ f ∈ fs, f.2.isWireSafe = true := by decide
  have hdepth : (record fs).depth ≤ maxDepth + 1 := by decide
  refine ⟨hkeys, hvalues, hdepth, rfl, rfl, ?_⟩
  obtain ⟨e, hparse, halike⟩ := lookup_survives hkeys hvalues hdepth
  refine ⟨e, hparse, ?_, ?_, (halike "d").missing.2 rfl⟩
  · obtain ⟨key, hfirst⟩ := ((halike "a").sent (record [])).1 rfl
    exact ((halike "a").received nil).2 ⟨key, _, hfirst, by rw [normal]⟩
  · obtain ⟨key, hfirst⟩ := ((halike "B").sent (keyword "a")).1 rfl
    exact ((halike "B").received _).2 ⟨key, _, hfirst, by rw [normal_atom rfl]⟩

end

end LispLink.Value
