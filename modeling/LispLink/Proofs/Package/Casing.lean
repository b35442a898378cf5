/-
  LispLink.Proofs.Package.Casing
  ────────────────────────────────
  **THE CASE OF LETTERS DOES NOT MATTER.**

  Two texts that differ in the case of ASCII letters only have one text in lower
  case, and the tokens and forms of that one are theirs in lower case.  So they have
  the same tokens, the same forms and the same classes up to the spelling of names.

  Packages go by their upper case, which is the same for both.  A file says the same
  of every package then, up to the spelling of what it exports and defines, and gives
  it the same lines (`FileFacts.ofForms_lowered`).
-/
import LispLink.Proofs.Package.Latest
import LispLink.Proofs.Source.Spelling

namespace LispLink.Package

open Source

/-! ## §1. What a file says, in lower case. -/

/-- Uses are names of packages, which are upper case. -/
def Declaration.lowered (d : Declaration) : Declaration :=
  ⟨d.exports.map Text.lowered, d.uses⟩

/-- Values by package in another spelling, under the same packages. -/
def mapValues (g : α → β) (pairs : List (String × α)) : List (String × β) :=
  pairs.map (Prod.map id g)

theorem rebind_mapValues (g : α → β) (name : String) (a : α) (pairs : List (String × α)) :
    rebind name (g a) (mapValues g pairs) = mapValues g (rebind name a pairs) := by
  unfold rebind mapValues
  rw [List.map_cons, List.filter_map]
  rfl

namespace FileFacts

def lowered (f : FileFacts) : FileFacts :=
  ⟨f.current, mapValues Declaration.lowered f.declarations, f.ranges,
    mapValues Text.lowered f.defined⟩

theorem packageOf?_lowered (form : Sexp) :
    packageOf? (form.altered lowering) = packageOf? form := by
  cases form with
  | atom a => rfl
  | list o role es => cases role <;> rfl

/-- **A form in lower case says what the form says.** -/
theorem push_lowered (f : FileFacts) (form : Sexp) :
    f.lowered.push (form.altered lowering) = (f.push form).lowered := by
  cases form with
  | atom a => rfl
  | list o role es =>
      cases role with
      | plain => rfl
      | locals => rfl
      | inPackage name => rfl
      | function name params isMacro => rfl
      | package name uses exports =>
          have hdeclared := rebind_mapValues Declaration.lowered name ⟨exports, uses⟩
            f.declarations
          exact congrArg (fun ds => { f.lowered with declarations := ds }) hdeclared

theorem ofForms_lowered (forms : List Sexp) :
    ofForms (forms.map (Sexp.altered lowering)) = (ofForms forms).lowered := by
  have hfoldl : ∀ f : FileFacts, (forms.map (Sexp.altered lowering)).foldl push f.lowered
      = (forms.foldl push f).lowered := by
    induction forms with
    | nil => exact fun f => rfl
    | cons form forms ih =>
        intro f
        rw [List.map_cons, List.foldl_cons, List.foldl_cons, push_lowered, ih]
  exact hfoldl empty

end FileFacts

/-! ## §2. Two tables. -/

namespace Table

/-- The answer for a line depends on the packages that are named, and on the lines
that they have in the file. -/
theorem resolve_congr {t u : Table} {file : FileId} (hnamed : t.named = u.named)
    (hranges : (t.facts file).ranges = (u.facts file).ranges) (line : Nat) :
    t.resolve file line = u.resolve file line := by
  simp only [resolve, owners, packages, range?, FileFacts.range?, hnamed, hranges]

/-- Forms in lower case update a table as the forms do, as far as lines are asked for. -/
theorem resolve_update_lowered (t : Table) (file other : FileId) (forms : List Sexp)
    (line : Nat) :
    (t.update file (forms.map (Sexp.altered lowering))).resolve other line
      = (t.update file forms).resolve other line := by
  apply resolve_congr
  · have hnames : (forms.map (Sexp.altered lowering)).filterMap FileFacts.packageOf?
        = forms.filterMap FileFacts.packageOf? := by
      simp only [List.filterMap_map, Function.comp_def, FileFacts.packageOf?_lowered]
    unfold update
    rw [hnames]
  · rw [facts_update, facts_update]
    by_cases hother : other = file
    · rw [if_pos hother, if_pos hother, FileFacts.ofForms_lowered]
      rfl
    · rw [if_neg hother, if_neg hother]

end Table

/-! ## §3. Two texts. -/

/-- **The case of ASCII letters does not matter.**  Texts that differ in nothing else
have tokens of the same kinds at the same places, and the same classes.  Their forms
are the same but for the case of texts: of the names of functions, parameters and
exports, and of what bindings bind, while package names and uses are equal.  What a
file says is the same up to the case of what is exported and defined, and an update
from either text gives every line of every file to the same package. -/
theorem letter_case_ignored {s t : String} (h : Text.sameLetters s t = true) :
    (tokenize s).map (fun x => (x.kind, x.start, x.stop))
        = (tokenize t).map (fun x => (x.kind, x.start, x.stop))
      ∧ (tokenize s).map (Token.altered lowering) = (tokenize t).map (Token.altered lowering)
      ∧ (read (tokenize s)).classes = (read (tokenize t)).classes
      ∧ (parse s).map (Sexp.altered lowering) = (parse t).map (Sexp.altered lowering)
      ∧ (Sexp.allNodes (parse s)).map
            (fun e => e.bindings.map (Sexp.Binding.altered lowering))
          = (Sexp.allNodes (parse t)).map
            (fun e => e.bindings.map (Sexp.Binding.altered lowering))
      ∧ (FileFacts.ofForms (parse s)).lowered = (FileFacts.ofForms (parse t)).lowered
      ∧ ∀ (table : Table) (file other : FileId) (line : Nat),
          (table.update file (parse s)).resolve other line
            = (table.update file (parse t)).resolve other line := by
  have htext : Text.lowered s = Text.lowered t := Text.lowered_eq_iff.2 h
  have htokens : (tokenize s).map (Token.altered lowering)
      = (tokenize t).map (Token.altered lowering) := by
    rw [← tokenize_lowered, ← tokenize_lowered, htext]
  have hread := congrArg read htokens
  rw [read_lowered, read_lowered] at hread
  obtain ⟨hforms, hclasses⟩ := ReadResult.mk.inj hread
  have hforms : (parse s).map (Sexp.altered lowering) = (parse t).map (Sexp.altered lowering) :=
    hforms
  refine ⟨?_, htokens, hclasses, hforms, ?_, ?_, ?_⟩
  · -- lower case leaves kinds and places alone
    have hplaces := congrArg (List.map fun x : Token => (x.kind, x.start, x.stop)) htokens
    rw [List.map_map, List.map_map] at hplaces
    exact hplaces
  · have hnodes := congrArg (fun es => (Sexp.allNodes es).map Sexp.bindings) hforms
    simp only [Sexp.allNodes_altered, List.map_map, Function.comp_def, Sexp.bindings_altered]
      at hnodes
    exact hnodes
  · rw [← FileFacts.ofForms_lowered, ← FileFacts.ofForms_lowered, hforms]
  · intro table file other line
    rw [← Table.resolve_update_lowered, hforms, Table.resolve_update_lowered]

/-- A switch and a definition, typed with capitals here and there: the texts
define `Serve` and `serve`, have the same classes and the same forms in lower case, and
put the second line in `WEB`. -/
theorem letter_case_ignored_definition :
    let s := "(IN-Package :Web)\n(Defun Serve (Req &Optional Next) (LET ((X Req)) x))"
    let t := "(in-package :WEB)\n(DEFUN serve (req &OPTIONAL next) (let ((x req)) X))"
    Text.sameLetters s t = true
      ∧ (FileFacts.ofForms (parse s)).defined = [("WEB", "Serve")]
      ∧ (FileFacts.ofForms (parse t)).defined = [("WEB", "serve")]
      ∧ (read (tokenize s)).classes = (read (tokenize t)).classes
      ∧ (parse s).map (Sexp.altered lowering) = (parse t).map (Sexp.altered lowering)
      ∧ (Table.empty.update ⟨"file:///web.lisp"⟩ (parse s)).resolve ⟨"file:///web.lisp"⟩ 1 = "WEB"
      ∧ (Table.empty.update ⟨"file:///web.lisp"⟩ (parse t)).resolve ⟨"file:///web.lisp"⟩ 1
          = "WEB" := by
  intro s t
  have h : Text.sameLetters s t = true := by decide +kernel
  have hweb : (Table.empty.update ⟨"file:///web.lisp"⟩ (parse t)).resolve
      ⟨"file:///web.lisp"⟩ 1 = "WEB" := by decide +kernel
  obtain ⟨_, _, hclasses, hforms, _, _, hresolve⟩ := letter_case_ignored h
  exact ⟨h, by decide +kernel, by decide +kernel, hclasses, hforms,
    (hresolve .empty _ _ 1).trans hweb, hweb⟩

end LispLink.Package
