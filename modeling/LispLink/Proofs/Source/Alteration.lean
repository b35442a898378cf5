/-
  LispLink.Proofs.Source.Alteration
  ────────────────────────────────
  **WHAT RECOGNITION DOES NOT LOOK AT.**

  An alteration gives tokens other places, other indices and another spelling, but
  leaves their kinds as they are.  It may respell a text in any way in which it is
  the same designator of the same upper case; then recognition commutes with it:

      recognition (altered elements)  =  the altered role, the altered marks

  Package names, which are upper case, are not altered at all.
-/
import LispLink.Source.Reading

namespace LispLink.Source

/-! ## §1. Altered expressions. -/

/-- Other places, indices and spellings. -/
structure Alteration where
  index : Nat → Nat
  start : Position → Position
  stop : Position → Position
  outline : Outline → Outline
  text : String → String
  /-- A keyword remains one, and nothing else becomes one. -/
  keyword : ∀ s, (text s).toList.head? = some ':' ↔ s.toList.head? = some ':'
  designated : ∀ s, Source.designated (text s) = text (Source.designated s)
  upper : ∀ s, Text.upper (text s) = Text.upper s

section

variable (α : Alteration)

def Token.altered (t : Token) : Token := ⟨t.kind, α.start t.start, α.stop t.stop, α.text t.text⟩

def Atom.altered (a : Atom) : Atom := ⟨a.token.altered α, α.index a.index, a.taint⟩

/-- Names of functions, parameters and exports are kept as they are spelt. -/
def Role.altered : Role → Role
  | .function name params isMacro => .function (α.text name) (params.map α.text) isMacro
  | .package name uses exports => .package name uses (exports.map α.text)
  | role => role

mutual

/-- An expression of the same shape with altered tokens. -/
def Sexp.altered : Sexp → Sexp
  | .atom a => .atom (a.altered α)
  | .list o role es => .list (α.outline o) (role.altered α) (Sexp.allAltered es)

def Sexp.allAltered : List Sexp → List Sexp
  | [] => []
  | e :: es => e.altered :: Sexp.allAltered es

end

def Sexp.Binding.altered (b : Sexp.Binding) : Sexp.Binding :=
  ⟨b.name.altered α, b.value.map (Sexp.altered α)⟩

def Mark.altered (k : Mark) : Mark := ⟨α.index k.index, k.kind⟩

def Recognition.altered (found : Recognition) : Recognition :=
  ⟨found.role.altered α, found.marks.map (Mark.altered α)⟩

end

namespace Sexp

variable {α : Alteration}

@[simp] theorem allAltered_eq_map (es : List Sexp) : allAltered α es = es.map (altered α) := by
  induction es with
  | nil => rfl
  | cons e es ih =>
      rw [allAltered, ih]
      rfl

@[simp] theorem atom?_altered (e : Sexp) :
    (e.altered α).atom? = e.atom?.map (Atom.altered α) := by
  cases e <;> simp [altered, atom?]

@[simp] theorem list?_altered (e : Sexp) :
    (e.altered α).list? = e.list?.map (List.map (altered α)) := by
  cases e <;> simp [altered, list?]

@[simp] theorem elements_altered (e : Sexp) :
    (e.altered α).elements = e.elements.map (altered α) := by
  cases e <;> simp [altered, elements]

@[simp] theorem head?_altered (e : Sexp) :
    (e.altered α).head? = e.head?.map (Atom.altered α) := by
  rw [head?, head?, elements_altered, List.head?_map]
  cases e.elements.head? <;> simp

/-- The atom at some place of a list. -/
theorem bind_atom?_map (e : Option Sexp) :
    (e.map (altered α)).bind atom? = (e.bind atom?).map (Atom.altered α) := by
  cases e <;> simp

/-- The list at some place of a list. -/
theorem bind_list?_map (e : Option Sexp) :
    (e.map (altered α)).bind list? = (e.bind list?).map (List.map (altered α)) := by
  cases e <;> simp

/-! ## §2. Bindings. -/

theorem Binding.ofEntry?_altered (e : Sexp) :
    ofEntry? (e.altered α) = Option.map (Binding.altered α) ( ofEntry? e) := by
  cases e with
  | atom a => rfl
  | list o role es =>
      show ((Sexp.allAltered α es).head?.bind atom?).map _ = _
      rw [allAltered_eq_map, List.head?_map, bind_atom?_map]
      simp only [ ofEntry?, List.getElem?_map, Option.map_map]
      rfl

theorem Binding.ofEntries_altered (es : List Sexp) :
    ofEntries (es.map (Sexp.altered α)) = (ofEntries es).map (Binding.altered α) := by
  simp only [ofEntries, List.filterMap_map, List.map_filterMap, Function.comp_def,
    ofEntry?_altered]

/-- **The bindings of an altered expression are its bindings, altered.** -/
theorem bindings_altered (e : Sexp) :
    (e.altered α).bindings = e.bindings.map (Binding.altered α) := by
  cases e with
  | atom a => rfl
  | list o role es =>
      rw [altered, allAltered_eq_map]
      match role, es with
      | .locals, _ :: entries :: _ =>
          show Binding.ofEntries (entries.altered α).elements = _
          rw [elements_altered, Binding.ofEntries_altered]
          rfl
      | .locals, [] | .locals, [_] | .plain, _ | .function .., _ | .package .., _
      | .inPackage _, _ => rfl

end Sexp

/-! ## §3. Recognition. -/

/-- A package goes by its upper case. -/
theorem packageName_altered (α : Alteration) (s : String) :
    packageName (α.text s) = packageName s := by
  unfold packageName
  rw [α.designated, α.upper]

namespace Recognition

variable {α : Alteration}

theorem entryName?_altered (e : Sexp) :
    entryName? (e.altered α) = (entryName? e).map (Atom.altered α) := by
  cases e with
  | atom a => rfl
  | list o role es => exact Sexp.head?_altered (.list o role es)

theorem parameters_altered (es : List Sexp) :
    parameters (es.map (Sexp.altered α)) = (parameters es).map (Atom.altered α) := by
  simp only [parameters, List.filterMap_map, Function.comp_def, entryName?_altered,
    ← List.map_filterMap, List.filter_map]
  rfl

theorem function_altered (isMacro : Bool) (es : List Sexp) :
    function isMacro (es.map (Sexp.altered α)) = (function isMacro es).altered α := by
  unfold function
  simp only [List.getElem?_map, Sexp.bind_atom?_map, Sexp.bind_list?_map]
  cases es[1]?.bind Sexp.atom? with
  | none => rfl
  | some name =>
      have hparams :
          parameters (((es[2]?.bind Sexp.list?).map (List.map (Sexp.altered α))).getD [])
            = (parameters ((es[2]?.bind Sexp.list?).getD [])).map (Atom.altered α) := by
        rw [← parameters_altered]
        cases es[2]?.bind Sexp.list? <;> rfl
      simp only [Option.map_some, hparams, altered, Role.altered, List.map_cons, List.map_map]
      rfl

theorem named_altered (es : List Sexp) :
    named (es.map (Sexp.altered α)) = (named es).altered α := by
  unfold named
  rw [List.getElem?_map, Sexp.bind_atom?_map]
  cases es[1]?.bind Sexp.atom? <;> rfl

/-- Options are known by their upper case. -/
theorem optionValues_altered (key : String) (es : List Sexp) :
    optionValues key (es.map (Sexp.altered α)) = (optionValues key es).map α.text := by
  unfold optionValues
  rw [List.flatMap_map, List.map_flatMap]
  refine congrArg (List.flatMap · es) (funext fun e => ?_)
  have hatoms : (e.altered α).elements.filterMap Sexp.atom?
      = (e.elements.filterMap Sexp.atom?).map (Atom.altered α) := by
    simp only [Sexp.elements_altered, List.filterMap_map, Function.comp_def,
      Sexp.atom?_altered, List.map_filterMap]
  rw [hatoms]
  cases e.elements.filterMap Sexp.atom? with
  | nil => rfl
  | cons k values =>
      have hkey : Text.upper (Source.designated (k.altered α).text)
          = Text.upper (Source.designated k.text) := by
        show Text.upper (Source.designated (α.text k.text)) = _
        rw [α.designated, α.upper]
      simp only [List.map_cons, hkey]
      split
      · simp only [List.map_map]
        rfl
      · rfl

theorem package_altered (es : List Sexp) :
    package (es.map (Sexp.altered α)) = (package es).altered α := by
  unfold package
  rw [List.getElem?_map, Sexp.bind_atom?_map]
  cases es[1]?.bind Sexp.atom? with
  | none => rfl
  | some name =>
      have hname : packageName (name.altered α).text = packageName name.text :=
        packageName_altered α name.text
      have huses : packageName ∘ α.text = packageName := by
        funext s
        rw [Function.comp_apply, packageName_altered]
      have hexports : Source.designated ∘ α.text = α.text ∘ Source.designated := by
        funext s
        exact α.designated s
      simp only [Option.map_some, ← List.map_drop, optionValues_altered, List.map_map, hname,
        huses, hexports, altered, Role.altered, List.map_nil]

theorem inPackage_altered (es : List Sexp) :
    inPackage (es.map (Sexp.altered α)) = (inPackage es).altered α := by
  unfold inPackage
  rw [List.getElem?_map, Sexp.bind_atom?_map]
  cases es[1]?.bind Sexp.atom? with
  | none => rfl
  | some name =>
      have hname : packageName (name.altered α).text = packageName name.text :=
        packageName_altered α name.text
      simp only [Option.map_some, hname]
      rfl

theorem locals_altered (es : List Sexp) :
    locals (es.map (Sexp.altered α)) = (locals es).altered α := by
  unfold locals
  rw [List.getElem?_map, Sexp.bind_list?_map]
  cases es[1]?.bind Sexp.list? with
  | none => rfl
  | some entries =>
      simp only [Option.map_some, Sexp.Binding.ofEntries_altered, altered, List.map_map]
      rfl

theorem ofHead_altered (a : Atom) (es : List Sexp) :
    ofHead (a.altered α) (es.map (Sexp.altered α)) = (ofHead a es).altered α := by
  have hkind : (a.altered α).kind = a.kind := rfl
  -- one case for each kind that recognition tells apart
  unfold ofHead
  rw [hkind]
  split
  · exact function_altered false es
  · exact function_altered true es
  · exact named_altered es
  · exact named_altered es
  · exact named_altered es
  · exact package_altered es
  · exact inPackage_altered es
  · exact locals_altered es
  · rfl
  · have htext : (a.altered α).text = α.text a.text := rfl
    simp only [htext, α.keyword]
    split <;> rfl
  · rfl

/-- **Recognition commutes with an alteration.** -/
theorem ofList_altered (taint : Taint) (es : List Sexp) :
    ofList taint (es.map (Sexp.altered α)) = (ofList taint es).altered α := by
  unfold ofList
  rw [List.head?_map, Sexp.bind_atom?_map]
  split
  · rfl
  · cases es.head?.bind Sexp.atom? with
    | none => rfl
    | some a => exact ofHead_altered a es

end Recognition

end LispLink.Source
