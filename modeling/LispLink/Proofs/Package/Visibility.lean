/-
  LispLink.Proofs.Package.Visibility
  ────────────────────────────────
  **WHICH NAMES CAN BE WRITTEN.**

  On a line with the package A, the names that can be written are

      s      if A defines or exports s
      s      if A uses another package that exports s
      P:n    if A does not use another package P that exports n

  and what packages export, use and define is told by the places of the forms in
  the latest contents of the files: exports and uses by the last declaration of the
  package in each file (`DeclaresLast`), definitions by the last switch in front of
  them (`DefinesIn`).  The facts of a file are kept form by form; that they say the
  same is an induction on the forms, the last one taken off.
-/
import LispLink.Proofs.Package.Latest

namespace LispLink.Package

open Source

/-! ## §1. What forms say by their places. -/

/-- The package that a form declares, with what it declares. -/
def declaration? : Sexp → Option (String × Declaration)
  | .list _ (.package name uses exports) _ => some (name, ⟨exports, uses⟩)
  | _ => none

/-- The package that a form switches to. -/
def target? : Sexp → Option String
  | .list _ (.inPackage name) _ => some name
  | _ => none

/-- The function or macro that a form defines. -/
def defined? : Sexp → Option String
  | .list _ (.function name _ _) _ => some name
  | _ => none

/-- Whether `d` is the last declaration of a package among the forms: none behind it
declares the package again. -/
def DeclaresLast (forms : List Sexp) (name : String) (d : Declaration) : Prop :=
  ∃ before e after, forms = before ++ e :: after ∧ declaration? e = some (name, d)
    ∧ ∀ e' ∈ after, ∀ d', declaration? e' ≠ some (name, d')

/-- Whether a package is current behind the forms: they switch to it and then to none,
or it is the default one and they switch to none at all. -/
def LeavesCurrent (forms : List Sexp) (name : String) : Prop :=
  (name = defaultPackage ∧ ∀ e ∈ forms, target? e = none)
    ∨ ∃ before e after, forms = before ++ e :: after ∧ target? e = some name
      ∧ ∀ e' ∈ after, target? e' = none

/-- Whether a form defines a name where a package is current. -/
def DefinesIn (forms : List Sexp) (name s : String) : Prop :=
  ∃ before e after, forms = before ++ e :: after ∧ defined? e = some s
    ∧ LeavesCurrent before name

/-- A form of a list with one more form is the last one or was there before. -/
theorem eq_or_split_of_concat {forms before after : List Sexp} {form e : Sexp}
    (h : forms ++ [form] = before ++ e :: after) :
    (before = forms ∧ e = form ∧ after = [])
      ∨ ∃ after', after = after' ++ [form] ∧ forms = before ++ e :: after' := by
  induction after using List.reverseRecOn with
  | nil =>
      obtain ⟨hforms, hform⟩ := List.append_inj' h rfl
      cases hform
      exact .inl ⟨hforms.symm, rfl, rfl⟩
  | append_singleton after' last _ =>
      right
      have happend : before ++ e :: (after' ++ [last]) = (before ++ e :: after') ++ [last] := by
        simp
      rw [happend] at h
      obtain ⟨hforms, hform⟩ := List.append_inj' h rfl
      cases hform
      exact ⟨after', rfl, hforms⟩

section

variable {forms : List Sexp} {form : Sexp} {name : String}

/-- The last form that counts is the one more, or that one does not count. -/
theorem last_concat {P Q : Sexp → Prop} :
    (∃ before e after, forms ++ [form] = before ++ e :: after ∧ P e ∧ ∀ e' ∈ after, Q e') ↔
      P form ∨ Q form ∧ ∃ before e after, forms = before ++ e :: after ∧ P e
        ∧ ∀ e' ∈ after, Q e' := by
  constructor
  · intro h
    obtain ⟨before, e, after, hsplit, he, hafter⟩ := h
    rcases eq_or_split_of_concat hsplit with ⟨_, rfl, _⟩ | ⟨after', rfl, hforms⟩
    · exact .inl he
    · refine .inr ⟨hafter form (by simp), before, e, after', hforms, he, ?_⟩
      intro e' he'
      exact hafter e' (by simp [he'])
  · intro h
    rcases h with hform | ⟨hform, before, e, after, rfl, he, hafter⟩
    · exact ⟨forms, form, [], rfl, hform, by simp⟩
    · refine ⟨before, e, after ++ [form], by simp, he, ?_⟩
      rw [List.forall_mem_append]
      exact ⟨hafter, List.forall_mem_singleton.2 hform⟩

theorem declaresLast_concat {d : Declaration} :
    DeclaresLast (forms ++ [form]) name d ↔
      declaration? form = some (name, d)
        ∨ (∀ d', declaration? form ≠ some (name, d')) ∧ DeclaresLast forms name d := last_concat

/-- Only a switch changes the package that is current. -/
theorem leavesCurrent_concat :
    LeavesCurrent (forms ++ [form]) name ↔
      target? form = some name ∨ target? form = none ∧ LeavesCurrent forms name := by
  unfold LeavesCurrent
  rw [last_concat, List.forall_mem_append, List.forall_mem_singleton]
  tauto

theorem definesIn_concat {s : String} :
    DefinesIn (forms ++ [form]) name s ↔
      (defined? form = some s ∧ LeavesCurrent forms name) ∨ DefinesIn forms name s := by
  constructor
  · intro h
    obtain ⟨before, e, after, hsplit, he, hcurrent⟩ := h
    rcases eq_or_split_of_concat hsplit with ⟨rfl, rfl, _⟩ | ⟨after', _, hforms⟩
    · exact .inl ⟨he, hcurrent⟩
    · exact .inr ⟨before, e, after', hforms, he, hcurrent⟩
  · intro h
    rcases h with ⟨hform, hcurrent⟩ | ⟨before, e, after, rfl, he, hcurrent⟩
    · exact ⟨forms, form, [], rfl, hform, hcurrent⟩
    · exact ⟨before, e, after ++ [form], by simp, he, hcurrent⟩

end

/-! ## §2. The facts of a file say the same. -/

namespace FileFacts

section

variable {f : FileFacts} {form : Sexp} {name : String}

/-- A declaration takes the place of those before, and other forms declare nothing. -/
theorem lookup_declarations_push {d : Declaration} :
    (f.push form).declarations.lookup name = some d ↔
      declaration? form = some (name, d)
        ∨ (∀ d', declaration? form ≠ some (name, d'))
          ∧ f.declarations.lookup name = some d := by
  cases form with
  | atom a => simp [push, declaration?]
  | list outline role elements =>
      cases role with
      | package other uses exports =>
          show (rebind other _ f.declarations).lookup name = some d ↔ _
          by_cases hname : name = other
          · subst hname
            rw [lookup_rebind_self]
            simp [declaration?]
          · rw [lookup_rebind_of_ne hname]
            simp [declaration?, Ne.symm hname]
      | _ => simp [push, declaration?]

theorem current_push :
    (f.push form).current = name ↔
      target? form = some name ∨ target? form = none ∧ f.current = name := by
  cases form with
  | atom a => simp [push, target?]
  | list outline role elements => cases role <;> simp [push, target?]

theorem mem_defined_push {s : String} :
    (name, s) ∈ (f.push form).defined ↔
      (defined? form = some s ∧ f.current = name) ∨ (name, s) ∈ f.defined := by
  cases form with
  | atom a => simp [push, defined?]
  | list outline role elements =>
      cases role with
      | function other params isMacro =>
          simp only [push, defined?, List.mem_cons, Prod.mk.injEq, Option.some.injEq]
          exact or_congr_left (and_comm.trans (and_congr eq_comm eq_comm))
      | _ => simp [push, defined?]

end

theorem ofForms_concat (forms : List Sexp) (form : Sexp) :
    ofForms (forms ++ [form]) = (ofForms forms).push form := List.foldl_append

/-- **A file declares of a package what its last declaration does.** -/
theorem lookup_declarations_ofForms {forms : List Sexp} {name : String} {d : Declaration} :
    (ofForms forms).declarations.lookup name = some d ↔ DeclaresLast forms name d := by
  induction forms using List.reverseRecOn with
  | nil => simp [ofForms, empty, DeclaresLast]
  | append_singleton forms form ih =>
      rw [ofForms_concat, lookup_declarations_push, declaresLast_concat, ih]

theorem current_ofForms {forms : List Sexp} {name : String} :
    (ofForms forms).current = name ↔ LeavesCurrent forms name := by
  induction forms using List.reverseRecOn with
  | nil => simp [ofForms, empty, LeavesCurrent, eq_comm]
  | append_singleton forms form ih =>
      rw [ofForms_concat, current_push, leavesCurrent_concat, ih]

/-- **A file defines a name in the package that is current in front of the
definition.** -/
theorem mem_defined_ofForms {forms : List Sexp} {name s : String} :
    (name, s) ∈ (ofForms forms).defined ↔ DefinesIn forms name s := by
  induction forms using List.reverseRecOn with
  | nil => simp [ofForms, empty, DefinesIn]
  | append_singleton forms form ih =>
      rw [ofForms_concat, mem_defined_push, definesIn_concat, current_ofForms, ih]

end FileFacts

/-! ## §3. The packages of all files. -/

namespace Table

variable (us : List Update) (name s : String)

/-- What any file declares of a package, its last declarations do. -/
theorem exists_mem_declared (g : Declaration → List String) :
    (∃ file, s ∈ ((((after us).facts file).declarations.lookup name).map g).getD []) ↔
      ∃ file d, DeclaresLast (latest us file) name d ∧ s ∈ g d := by
  refine exists_congr fun file => ?_
  simp only [facts_after, ← FileFacts.lookup_declarations_ofForms]
  cases (FileFacts.ofForms (latest us file)).declarations.lookup name <;> simp

theorem mem_exports_after :
    s ∈ (after us).exports name ↔
      ∃ file d, DeclaresLast (latest us file) name d ∧ s ∈ d.exports := by
  unfold exports
  rw [mem_nameSet_files (g := fun f => f.exportsOf name) (isOrderly_after us) rfl]
  exact exists_mem_declared us name s Declaration.exports

theorem mem_uses_after :
    s ∈ (after us).uses name ↔
      ∃ file d, DeclaresLast (latest us file) name d ∧ s ∈ d.uses := by
  unfold uses
  rw [mem_nameSet_files (g := fun f => f.usesOf name) (isOrderly_after us) rfl]
  exact exists_mem_declared us name s Declaration.uses

theorem mem_defined_after :
    s ∈ (after us).defined name ↔ ∃ file, DefinesIn (latest us file) name s := by
  unfold defined
  rw [mem_nameSet_files (g := fun f => f.definedIn name) (isOrderly_after us) rfl]
  refine exists_congr fun file => ?_
  rw [facts_after, ← FileFacts.mem_defined_ofForms]
  simp [FileFacts.definedIn]

/-- What other packages add to the names on a line, by whether they are used. -/
theorem mem_exportedTo {t : Table} {active : String} :
    s ∈ t.exportedTo active name ↔
      (name ∈ t.uses active ∧ s ∈ t.exports name)
        ∨ name ∉ t.uses active ∧ ∃ n ∈ t.exports name, s = name ++ ":" ++ n := by
  unfold exportedTo
  by_cases huses : name ∈ t.uses active
  · simp [huses]
  · simp [huses, eq_comm]

/-- **The names on a line are those of its package, and those of the others, bare or
with their package.** -/
theorem mem_visible_after (file : FileId) (line : Nat) :
    let t := after us
    let active := t.resolve file line
    s ∈ t.visible file line ↔
      s ∈ t.defined active ∨ s ∈ t.exports active
        ∨ (∃ name, name ≠ active ∧ name ∈ t.uses active ∧ s ∈ t.exports name)
        ∨ ∃ name, name ≠ active ∧ name ∉ t.uses active
          ∧ ∃ n ∈ t.exports name, s = name ++ ":" ++ n := by
  intro t active
  have hview : t.answers = t.view.answers := answers_eq_view t
  have hvisible : t.visible = t.view.visible := congrArg Answers.visible hview
  have hresolve : t.resolve = t.view.resolve := congrArg Answers.resolve hview
  rw [hvisible, View.mem_visible_iff (shows_after us), ← hresolve]
  -- the other packages are told apart by whether they are used
  refine or_congr_right (or_congr_right ?_)
  rw [← exists_or]
  refine exists_congr fun name => ?_
  rw [← and_or_left]
  exact and_congr_right fun _ => mem_exportedTo name s

end Table

/-! ## §4. What can be written on a line. -/

/-- **The names on a line, from the files alone.**  They stand in order, each once.
They are what the package of the line defines or exports; what another package
exports that it uses; and with the name of the package and a colon in front what
another package exports that it does not use.  A package exports and uses what its
last declaration in the latest contents of some file says, and defines the names
that are defined in the latest contents of some file where it is current.  The
registry answers alike. -/
theorem names_on_line (us : List Update) :
    let t := Table.after us
    (Registry.after us).answers = t.answers
      ∧ (∀ file line,
          let active := t.resolve file line
          IsAscending (t.visible file line)
            ∧ ∀ s, s ∈ t.visible file line ↔
              s ∈ t.defined active ∨ s ∈ t.exports active
                ∨ (∃ name, name ≠ active ∧ name ∈ t.uses active ∧ s ∈ t.exports name)
                ∨ ∃ name, name ≠ active ∧ name ∉ t.uses active
                  ∧ ∃ n ∈ t.exports name, s = name ++ ":" ++ n)
      ∧ (∀ name s,
          (s ∈ t.exports name ↔
            ∃ file d, DeclaresLast (latest us file) name d ∧ s ∈ d.exports)
          ∧ (s ∈ t.uses name ↔
            ∃ file d, DeclaresLast (latest us file) name d ∧ s ∈ d.uses)
          ∧ (s ∈ t.defined name ↔ ∃ file, DefinesIn (latest us file) name s)) := by
  intro t
  refine ⟨answers_after us, ?_, ?_⟩
  · intro file line active
    exact ⟨isAscending_nameSet _, fun s => Table.mem_visible_after us s file line⟩
  · intro name s
    exact ⟨Table.mem_exports_after us name s, Table.mem_uses_after us name s,
      Table.mem_defined_after us name s⟩

/-- Declared in one file and current in another, with one package used and one not. -/
example :
    (Table.after
      [⟨⟨"file:///packages.lisp"⟩, parse "(defpackage :util (:export #:old))
          (defpackage :util (:export #:help)) (defpackage :lib (:export #:api))
          (defpackage :app (:use :cl :util) (:export #:main))"⟩,
        ⟨⟨"file:///app.lisp"⟩, parse "(defun top ())\n(in-package :app)\n(defun run ())\n"⟩]).visible
      ⟨"file:///app.lisp"⟩ 2 = ["LIB:api", "help", "main", "run"] := by
  decide +kernel

end LispLink.Package
