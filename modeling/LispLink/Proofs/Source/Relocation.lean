/-
  LispLink.Proofs.Source.Relocation
  ────────────────────────────────
  **WHAT IS READ DOES NOT DEPEND ON WHERE IT STANDS.**

  A relocation says where the tokens of one list are in another one, by index and by
  place.  It takes an expression to one of the same shape: the kinds and the texts
  of its atoms, the roles, the taints and what is closed stay what they are.
  A relocation is an alteration that respells nothing, and so

      recognition (relocated elements)  =  the same role, the marks relocated
-/
import LispLink.Proofs.Source.Alteration

namespace LispLink.Source

/-! ## §1. Relocated expressions. -/

/-- Where tokens are found elsewhere: their indices, the places before and behind
them, and the place where lists stop that are not closed. -/
structure Relocation where
  index : Nat → Nat
  start : Position → Position
  stop : Position → Position
  rest : Position → Position
  /-- No two tokens get to the same index. -/
  injective : ∀ i j, index i = index j → i = j

namespace Relocation

variable (m : Relocation)

/-- Where a list stops, closed or not. -/
def stopIf (closed : Bool) (p : Position) : Position := if closed then m.stop p else m.rest p

end Relocation

section

variable (m : Relocation)

def Token.relocated (t : Token) : Token := ⟨t.kind, m.start t.start, m.stop t.stop, t.text⟩

def Atom.relocated (a : Atom) : Atom := ⟨a.token.relocated m, m.index a.index, a.taint⟩

def Outline.relocated (o : Outline) : Outline :=
  ⟨m.start o.start, m.stopIf o.closed o.stop, o.closed, o.taint⟩

mutual

/-- An expression of the same shape with its tokens elsewhere. -/
def Sexp.relocated : Sexp → Sexp
  | .atom a => .atom (a.relocated m)
  | .list o role es => .list (o.relocated m) role (Sexp.allRelocated es)

def Sexp.allRelocated : List Sexp → List Sexp
  | [] => []
  | e :: es => e.relocated :: Sexp.allRelocated es

end

def Sexp.Binding.relocated (b : Sexp.Binding) : Sexp.Binding :=
  ⟨b.name.relocated m, b.value.map (Sexp.relocated m)⟩

def Mark.relocated (k : Mark) : Mark := ⟨m.index k.index, k.kind⟩

/-- What a list does is the same; only its marks are elsewhere. -/
def Recognition.relocated (found : Recognition) : Recognition :=
  ⟨found.role, found.marks.map (Mark.relocated m)⟩

def OpenList.relocated (l : OpenList) : OpenList :=
  ⟨m.start l.start, m.index l.index, l.taint, l.elements.map (Sexp.relocated m)⟩

def FlatList.relocated (f : FlatList) : FlatList :=
  ⟨m.start f.start, f.taint, f.inner, f.elements.map (Sexp.relocated m)⟩

end

/-! ## §2. Recognition. -/

/-- A relocation alters places and indices, and no spelling. -/
def Relocation.alteration (m : Relocation) : Alteration where
  index := m.index
  start := m.start
  stop := m.stop
  outline := Outline.relocated m
  text := id
  keyword := fun _ => Iff.rfl
  designated := fun _ => rfl
  upper := fun _ => rfl

section

variable {m : Relocation}

@[simp] theorem Sexp.allRelocated_eq_map (es : List Sexp) :
    allRelocated m es = es.map (relocated m) := by
  induction es with
  | nil => rfl
  | cons e es ih =>
      rw [allRelocated, ih]
      rfl

theorem Role.altered_alteration (role : Role) : role.altered m.alteration = role := by
  cases role <;> simp [altered, Relocation.alteration]

mutual

theorem Sexp.altered_alteration (e : Sexp) : e.altered m.alteration = e.relocated m := by
  cases e with
  | atom a => rfl
  | list o role es =>
      rw [altered, relocated, Role.altered_alteration, Sexp.allAltered_alteration]
      rfl

theorem Sexp.allAltered_alteration (es : List Sexp) :
    allAltered m.alteration es = allRelocated m es := by
  cases es with
  | nil => rfl
  | cons e es =>
      rw [allAltered, allRelocated, Sexp.altered_alteration, Sexp.allAltered_alteration]

end

theorem Sexp.map_altered_alteration (es : List Sexp) :
    es.map (altered m.alteration) = es.map (relocated m) :=
  List.map_congr_left fun e _ => e.altered_alteration

theorem Sexp.Binding.altered_alteration (b : Sexp.Binding) :
    b.altered m.alteration = b.relocated m := by
  have hvalue : b.value.map (Sexp.altered m.alteration) = b.value.map (Sexp.relocated m) :=
    Option.map_congr fun e _ => e.altered_alteration
  rw [altered, relocated, hvalue]
  rfl

theorem Recognition.altered_alteration (found : Recognition) :
    found.altered m.alteration = found.relocated m := by
  rw [altered, relocated, Role.altered_alteration]
  rfl

/-- **The bindings of an expression that was relocated are its bindings, relocated.** -/
theorem Sexp.bindings_relocated (e : Sexp) :
    (e.relocated m).bindings = e.bindings.map (Binding.relocated m) := by
  rw [← e.altered_alteration, bindings_altered]
  exact List.map_congr_left fun b _ => b.altered_alteration

/-- **Recognition does not look where tokens are.** -/
theorem Recognition.ofList_relocated (taint : Taint) (es : List Sexp) :
    ofList taint (es.map (Sexp.relocated m)) = (ofList taint es).relocated m := by
  rw [← Sexp.map_altered_alteration, ofList_altered, altered_alteration]

end

end LispLink.Source
