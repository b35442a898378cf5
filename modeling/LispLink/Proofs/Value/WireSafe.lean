/-
  LispLink.Proofs.Value.WireSafe
  ────────────────────────────────
  **VALUES THAT SURVIVE BEING WRITTEN.**

  Names are written as they are, so a value can only be read back if its names
  look like what they are.  `isWireSafe` says so, field by field; there is no
  condition on the contents of strings.  What comes back is the value in its
  normal form, in which a record is the list of its keys and values:

      normal ()              =  nil
      normal (:k₁ v₁ … )     =  (:k₁ (normal v₁) … )

  As far as the text goes a record is that list already (`fieldsChars_eq`), so
  that every fact about written values is one about lists.
-/
import LispLink.Source.Lexeme
import LispLink.Value.Reading
import LispLink.Value.Written

namespace LispLink.Value

open Number Source

/-! ## §1. Safe names and values. -/

/-- A name that a word can hold: something, with no white space, parens or
double quotes. -/
structure IsName (name : String) : Prop where
  nonempty : name.toList ≠ []
  whole : ∀ c ∈ name.toList, isDelimiter c = false

/-- The characters that would make something else of a word that they start: the
quote, the backquote, the comma, the semicolon, the bar, the sharp sign and the
colon. -/
def leadMarks : List Char := ['\'', Char.ofNat 0x60, ',', ';', '|', '#', ':']

/-- A name that reads as a symbol: not as a keyword, as `nil` or `t`, or as a
number. -/
structure IsSymbolName (name : String) : Prop extends IsName name where
  unmarked : ∀ c ∈ name.toList.head?, c ∉ leadMarks
  not_nil : Text.sameLetters name "nil" = false
  not_t : Text.sameLetters name "t" = false
  not_int : int64OfChars? name.toList = none
  not_float : lispFloat? name.toList = none

instance (name : String) : Decidable (IsName name) :=
  decidable_of_iff (name.toList ≠ [] ∧ name.toList.all (fun c => !isDelimiter c) = true) <| by
    rw [List.all_eq_true]
    simp only [Bool.not_eq_true']
    exact ⟨fun h => ⟨h.1, h.2⟩, fun h => ⟨h.1, h.2⟩⟩

instance (name : String) : Decidable (IsSymbolName name) :=
  decidable_of_iff
    (IsName name ∧ name.toList.head?.all (fun c => !leadMarks.contains c) = true
      ∧ Text.sameLetters name "nil" = false ∧ Text.sameLetters name "t" = false
      ∧ (int64OfChars? name.toList).isNone ∧ (lispFloat? name.toList).isNone) <| by
    rw [Option.all_eq_true]
    simp only [Bool.not_eq_true', List.contains_eq_mem, decide_eq_false_iff_not,
      Option.isNone_iff_eq_none]
    exact ⟨fun h => ⟨h.1, h.2.1, h.2.2.1, h.2.2.2.1, h.2.2.2.2.1, h.2.2.2.2.2⟩,
      fun h => ⟨h.1, h.unmarked, h.not_nil, h.not_t, h.not_int, h.not_float⟩⟩

mutual

/-- Whether a value survives being written: it has no floats, and all its names
read as what they are. -/
def isWireSafe : Value → Bool
  | nil | t | int _ | str _ => true
  | float _ => false
  | symbol name => decide (IsSymbolName name)
  | keyword name => decide (IsName name)
  | list vs => areWireSafe vs
  | record fs => fieldsWireSafe fs

/-- Whether several values survive being written. -/
def areWireSafe : List Value → Bool
  | [] => true
  | v :: vs => isWireSafe v && areWireSafe vs

/-- Whether several fields survive being written. -/
def fieldsWireSafe : List (String × Value) → Bool
  | [] => true
  | (k, v) :: fs => decide (IsName k) && isWireSafe v && fieldsWireSafe fs

end

mutual

/-- What a value reads back as. -/
def normal : Value → Value
  | list [] => nil
  | list (v :: vs) => list (normal v :: normals vs)
  | record [] => nil
  | record ((k, v) :: fs) => list (keyword k :: normal v :: fieldsNormal fs)
  | v => v

/-- What several values read back as. -/
def normals : List Value → List Value
  | [] => []
  | v :: vs => normal v :: normals vs

/-- What several fields read back as: keys and values by turns. -/
def fieldsNormal : List (String × Value) → List Value
  | [] => []
  | (k, v) :: fs => keyword k :: normal v :: fieldsNormal fs

end

mutual

/-- How deeply lists and records are nested; an empty one is a level as well. -/
def depth : Value → Nat
  | list vs => depths vs + 1
  | record fs => fieldsDepth fs + 1
  | _ => 0

/-- The depth of the deepest of several values. -/
def depths : List Value → Nat
  | [] => 0
  | v :: vs => max (depth v) (depths vs)

/-- The depth of the deepest of several fields. -/
def fieldsDepth : List (String × Value) → Nat
  | [] => 0
  | (_, v) :: fs => max (depth v) (fieldsDepth fs)

end

@[simp] theorem areWireSafe_iff {vs : List Value} :
    areWireSafe vs = true ↔ ∀ v ∈ vs, v.isWireSafe = true := by
  induction vs with
  | nil => simp [areWireSafe]
  | cons v vs ih => simp [areWireSafe, ih]

@[simp] theorem depths_le {vs : List Value} {n : Nat} :
    depths vs ≤ n ↔ ∀ v ∈ vs, v.depth ≤ n := by
  induction vs with
  | nil => simp [depths]
  | cons v vs ih =>
      rw [depths, Nat.max_le, ih]
      simp

/-! ## §2. A record as a list. -/

/-- The keys and values of a record by turns. -/
def plist : List (String × Value) → List Value
  | [] => []
  | (k, v) :: fs => keyword k :: v :: plist fs

theorem mem_plist {w : Value} {fs : List (String × Value)} :
    w ∈ plist fs ↔ ∃ f ∈ fs, w = keyword f.1 ∨ w = f.2 := by
  induction fs with
  | nil => simp [plist]
  | cons f fs ih =>
      obtain ⟨k, v⟩ := f
      simp only [plist, List.mem_cons, ih]
      constructor
      · rintro (h | h | ⟨f, hf, h⟩)
        · exact ⟨(k, v), .inl rfl, .inl h⟩
        · exact ⟨(k, v), .inl rfl, .inr h⟩
        · exact ⟨f, .inr hf, h⟩
      · rintro ⟨f, rfl | hf, h⟩
        · exact h.imp_right .inl
        · exact .inr (.inr ⟨f, hf, h⟩)

theorem fieldsChars_eq : ∀ fs : List (String × Value), fieldsChars fs = itemsChars (plist fs)
  | [] => by simp [plist, fieldsChars, itemsChars]
  | [(k, v)] => by simp [plist, fieldsChars, itemsChars, chars]
  | (k, v) :: (k', v') :: fs => by
      have ih := fieldsChars_eq ((k', v') :: fs)
      simp only [plist] at ih
      simp [plist, fieldsChars, itemsChars, chars, ih]

/-- A record is written as the list of its keys and values. -/
theorem chars_record (fs : List (String × Value)) :
    (record fs).chars = (list (plist fs)).chars := by
  simp only [chars, fieldsChars_eq]

theorem fieldsWireSafe_eq (fs : List (String × Value)) :
    fieldsWireSafe fs = areWireSafe (plist fs) := by
  induction fs with
  | nil => simp [plist, fieldsWireSafe, areWireSafe]
  | cons f fs ih =>
      obtain ⟨k, v⟩ := f
      simp [plist, fieldsWireSafe, areWireSafe, isWireSafe, ih, Bool.and_assoc]

theorem isWireSafe_record (fs : List (String × Value)) :
    (record fs).isWireSafe = (list (plist fs)).isWireSafe := by
  simp only [isWireSafe, fieldsWireSafe_eq]

theorem fieldsNormal_eq (fs : List (String × Value)) :
    fieldsNormal fs = normals (plist fs) := by
  induction fs with
  | nil => simp [plist, fieldsNormal, normals]
  | cons f fs ih =>
      obtain ⟨k, v⟩ := f
      simp [plist, fieldsNormal, normals, normal, ih]

/-- A record reads back as the list of its keys and values does. -/
theorem normal_record (fs : List (String × Value)) :
    (record fs).normal = (list (plist fs)).normal := by
  cases fs with
  | nil => simp [plist, normal]
  | cons f fs =>
      obtain ⟨k, v⟩ := f
      simp [plist, normal, normals, fieldsNormal_eq]

theorem fieldsDepth_eq (fs : List (String × Value)) :
    fieldsDepth fs = depths (plist fs) := by
  induction fs with
  | nil => simp [plist, fieldsDepth, depths]
  | cons f fs ih =>
      obtain ⟨k, v⟩ := f
      simp [plist, fieldsDepth, depths, depth, ih]

theorem depth_record (fs : List (String × Value)) :
    (record fs).depth = (list (plist fs)).depth := by
  simp only [depth, fieldsDepth_eq]

/-! ## §3. Induction. -/

/-- To show something of every value, show it of the atoms, of lists that have
it in all their elements, and carry it over from lists to records. -/
@[elab_as_elim]
theorem written_induction {P : Value → Prop} (v : Value)
    (atom : ∀ v, v.depth = 0 → P v)
    (list : ∀ vs, (∀ v ∈ vs, P v) → P (list vs))
    (record : ∀ fs, P (.list (plist fs)) → P (record fs)) : P v :=
  match v with
  | .nil => atom .nil rfl
  | .t => atom .t rfl
  | .int n => atom (.int n) rfl
  | .float x => atom (.float x) rfl
  | .str s => atom (.str s) rfl
  | .symbol s => atom (.symbol s) rfl
  | .keyword k => atom (.keyword k) rfl
  | .list vs => list vs fun w _ => written_induction w atom list record
  | .record fs => by
      refine record fs (list (plist fs) fun w hw => ?_)
      obtain ⟨f, _, rfl | rfl⟩ := mem_plist.1 hw
      · exact atom (.keyword f.1) rfl
      · exact written_induction f.2 atom list record
termination_by sizeOf v
decreasing_by
  · have hw : sizeOf w < sizeOf vs := List.sizeOf_lt_of_mem ‹w ∈ vs›
    rw [Value.list.sizeOf_spec]
    omega
  · have hf : sizeOf f < sizeOf fs := List.sizeOf_lt_of_mem ‹f ∈ fs›
    obtain ⟨k, w⟩ := f
    rw [Prod.mk.sizeOf_spec] at hf
    rw [Value.record.sizeOf_spec]
    show sizeOf w < 1 + sizeOf fs
    omega

end LispLink.Value
