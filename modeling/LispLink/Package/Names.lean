/-
  LispLink.Package.Names
  ────────────────────────────────
  **SETS OF NAMES.**

  A set of names is the list of its members, strictly ascending by code point.
-/

namespace LispLink.Package

/-- Insert a name where it belongs; a name that is there already stays
single. -/
def insertName (s : String) : List String → List String
  | [] => [s]
  | t :: ts => if s < t then s :: t :: ts else if s = t then t :: ts else t :: insertName s ts

/-- The set of the names in a list. -/
def nameSet (ss : List String) : List String := ss.foldr insertName []

/-- Everything in either of two lists of names, as a set. -/
def insertNames (ss : List String) (set : List String) : List String := ss.foldr insertName set

@[simp] theorem mem_insertName {s t : String} {set : List String} :
    t ∈ insertName s set ↔ t = s ∨ t ∈ set := by
  induction set with
  | nil => simp [insertName]
  | cons u us ih =>
    unfold insertName
    split
    · simp
    · split
      · next h => subst h; simp
      · simp only [List.mem_cons, ih]
        constructor
        · rintro (h | h | h) <;> simp [h]
        · rintro (h | h | h) <;> simp [h]

theorem mem_insertNames {s : String} {ss set : List String} :
    s ∈ insertNames ss set ↔ s ∈ ss ∨ s ∈ set := by
  induction ss with
  | nil => simp [insertNames]
  | cons t ss ih =>
    show s ∈ insertName t (insertNames ss set) ↔ _
    rw [mem_insertName, ih, List.mem_cons, or_assoc]

@[simp] theorem mem_nameSet {s : String} {ss : List String} : s ∈ nameSet ss ↔ s ∈ ss := by
  refine mem_insertNames.trans ?_
  simp

/-- Whether names stand in ascending order, each once. -/
def IsAscending (names : List String) : Prop := names.Pairwise (· < ·)

theorem isAscending_insertName {s : String} {set : List String} (h : IsAscending set) :
    IsAscending (insertName s set) := by
  induction set with
  | nil => exact List.pairwise_singleton _ _
  | cons t ts ih =>
    obtain ⟨hfirst, hrest⟩ := List.pairwise_cons.1 h
    unfold insertName
    split
    · next hlt =>
      refine List.pairwise_cons.2 ⟨?_, h⟩
      intro u hu
      rcases List.mem_cons.1 hu with rfl | hu
      · exact hlt
      · exact String.lt_trans hlt (hfirst u hu)
    · next hnlt =>
      split
      · exact h
      · next hne =>
        refine List.pairwise_cons.2 ⟨?_, ih hrest⟩
        intro u hu
        rcases mem_insertName.1 hu with rfl | hu
        · exact Decidable.byContradiction fun hnot =>
            hne (String.le_antisymm (String.not_lt.1 hnot) (String.not_lt.1 hnlt))
        · exact hfirst u hu

theorem isAscending_insertNames {ss set : List String} (h : IsAscending set) :
    IsAscending (insertNames ss set) := by
  induction ss with
  | nil => exact h
  | cons s ss ih => exact isAscending_insertName ih

theorem isAscending_nameSet (ss : List String) : IsAscending (nameSet ss) :=
  isAscending_insertNames List.Pairwise.nil

theorem nodup_of_isAscending {names : List String} (h : IsAscending names) : names.Nodup := by
  refine h.imp ?_
  rintro s t hlt rfl
  exact String.lt_irrefl s hlt

/-- Ascending lists are equal if they have the same members. -/
theorem eq_of_isAscending {as bs : List String} (ha : IsAscending as) (hb : IsAscending bs)
    (h : ∀ s, s ∈ as ↔ s ∈ bs) : as = bs := by
  have hperm : as.Perm bs :=
    (List.perm_ext_iff_of_nodup (nodup_of_isAscending ha) (nodup_of_isAscending hb)).2 h
  exact hperm.eq_of_pairwise (fun s t _ _ hst hts => absurd hts (String.lt_asymm hst)) ha hb

end LispLink.Package
