/-
  LispLink.Proofs.Source.Marks
  ────────────────────────────────
  **WHERE RECOGNITION PUTS MARKS.**

  Recognition looks at the elements of one list and marks tokens by index.  The
  index is always that of an atom of this list: of its head, of the name behind
  it, of a parameter, or of a name that a `let` binds.
-/
import LispLink.Proofs.Source.Leaves

namespace LispLink.Source

namespace Recognition

/-! ## §1. Atoms that recognition finds. -/

variable {es : List Sexp} {a : Atom}

/-- An element of a list that is an atom is one of its atoms. -/
theorem mem_allAtoms_of_atom {i : Nat} (h : es[i]?.bind Sexp.atom? = some a) :
    a ∈ Sexp.allAtoms es := by
  obtain ⟨e, he, ha⟩ := Option.bind_eq_some_iff.1 h
  exact Sexp.mem_allAtoms.2 ⟨e, List.mem_of_getElem? he, Sexp.mem_atoms_of_atom? ha⟩

/-- So are the atoms of an element that is a list itself. -/
theorem mem_allAtoms_of_list {i : Nat} {entries : List Sexp}
    (h : es[i]?.bind Sexp.list? = some entries) (ha : a ∈ Sexp.allAtoms entries) :
    a ∈ Sexp.allAtoms es := by
  obtain ⟨e, he, hentries⟩ := Option.bind_eq_some_iff.1 h
  exact Sexp.mem_allAtoms.2 ⟨e, List.mem_of_getElem? he, Sexp.mem_atoms_of_list? hentries ha⟩

theorem mem_allAtoms_of_parameters {entries : List Sexp} (ha : a ∈ parameters entries) :
    a ∈ Sexp.allAtoms entries := by
  obtain ⟨e, he, hname⟩ := List.mem_filterMap.1 (List.mem_filter.1 ha).1
  refine Sexp.mem_allAtoms.2 ⟨e, he, ?_⟩
  cases e with
  | atom b =>
      cases hname
      exact List.mem_singleton_self a
  | list o role es => exact Sexp.mem_allAtoms_of_head hname

theorem mem_allAtoms_of_ofEntries {entries : List Sexp} {b : Sexp.Binding}
    (hb : b ∈ Sexp.Binding.ofEntries entries) : b.name ∈ Sexp.allAtoms entries := by
  obtain ⟨e, he, hentry⟩ := List.mem_filterMap.1 hb
  refine Sexp.mem_allAtoms.2 ⟨e, he, ?_⟩
  cases e with
  | atom a =>
      cases hentry
      exact List.mem_singleton_self a
  | list o role es =>
      obtain ⟨a, ha, rfl⟩ := Option.map_eq_some_iff.1 hentry
      exact Sexp.mem_allAtoms_of_head ha

/-! ## §2. Marks. -/

/-- Whether marks are put on atoms of these expressions only. -/
def MarksWithin (found : Recognition) (es : List Sexp) : Prop :=
  ∀ m ∈ found.marks, ∃ a ∈ Sexp.allAtoms es, a.index = m.index

theorem marksWithin_plain (es : List Sexp) : plain.MarksWithin es := fun _ hm => nomatch hm

theorem marksWithin_naming (ha : a ∈ Sexp.allAtoms es) : (naming a).MarksWithin es := by
  intro m hm
  obtain rfl := List.mem_singleton.1 hm
  exact ⟨a, ha, rfl⟩

theorem marksWithin_function (isMacro : Bool) (es : List Sexp) :
    (function isMacro es).MarksWithin es := by
  unfold function
  cases hname : es[1]?.bind Sexp.atom? with
  | none => exact marksWithin_plain es
  | some name =>
      intro m hm
      rcases List.mem_cons.1 hm with rfl | hm
      · exact ⟨name, mem_allAtoms_of_atom hname, rfl⟩
      · obtain ⟨a, ha, rfl⟩ := List.mem_map.1 hm
        cases hentries : es[2]?.bind Sexp.list? with
        | none =>
            rw [hentries] at ha
            cases ha
        | some entries =>
            rw [hentries] at ha
            exact ⟨a, mem_allAtoms_of_list hentries (mem_allAtoms_of_parameters ha), rfl⟩

theorem marksWithin_named (es : List Sexp) : (named es).MarksWithin es := by
  unfold named
  cases hname : es[1]?.bind Sexp.atom? with
  | none => exact marksWithin_plain es
  | some name => exact marksWithin_naming (mem_allAtoms_of_atom hname)

theorem marksWithin_package (es : List Sexp) : (package es).MarksWithin es := by
  unfold package
  cases es[1]?.bind Sexp.atom? with
  | none => exact marksWithin_plain es
  | some name => exact fun _ hm => nomatch hm

theorem marksWithin_inPackage (es : List Sexp) : (inPackage es).MarksWithin es := by
  unfold inPackage
  cases es[1]?.bind Sexp.atom? with
  | none => exact marksWithin_plain es
  | some name => exact fun _ hm => nomatch hm

theorem marksWithin_locals (es : List Sexp) : (locals es).MarksWithin es := by
  unfold locals
  cases hentries : es[1]?.bind Sexp.list? with
  | none => exact marksWithin_plain es
  | some entries =>
      intro m hm
      obtain ⟨b, hb, rfl⟩ := List.mem_map.1 hm
      exact ⟨b.name, mem_allAtoms_of_list hentries (mem_allAtoms_of_ofEntries hb), rfl⟩

/-- **Whatever a list is recognised as, its marks stay inside.** -/
theorem marksWithin_ofList (taint : Taint) (es : List Sexp) :
    (ofList taint es).MarksWithin es := by
  unfold ofList
  split
  · exact marksWithin_plain es
  · cases hhead : es.head?.bind Sexp.atom? with
    | none => exact marksWithin_plain es
    | some a =>
        have ha : a ∈ Sexp.allAtoms es := Sexp.mem_allAtoms_of_head hhead
        show (ofHead a es).MarksWithin es
        -- one case for each kind that recognition tells apart
        unfold ofHead
        split
        · exact marksWithin_function false es
        · exact marksWithin_function true es
        · exact marksWithin_named es
        · exact marksWithin_named es
        · exact marksWithin_named es
        · exact marksWithin_package es
        · exact marksWithin_inPackage es
        · exact marksWithin_locals es
        · exact marksWithin_naming ha
        · split
          · exact marksWithin_plain es
          · exact marksWithin_naming ha
        · exact marksWithin_plain es

end Recognition

end LispLink.Source
