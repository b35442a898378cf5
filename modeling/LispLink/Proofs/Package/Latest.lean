/-
  LispLink.Proofs.Package.Latest
  ────────────────────────────────
  **ONLY THE LATEST CONTENTS COUNT.**

  Files are updated many times and in any order.  What is known afterwards is what
  the latest contents of every file say, and nothing of what any file said before:

      latest us = latest vs   ⟹   same answers behind us and behind vs

  The facts of a table and the pages of a registry both say what the latest
  contents do (`facts_after`, `page_after`), so that the two ways to keep packages
  answer alike.  Histories may leave other names behind; a name that no file says
  anything of adds nothing to any answer (`View.answers_eq`).
-/
import Mathlib.Data.List.Induction
import LispLink.Proofs.Package.Registry
import LispLink.Source.Reading

namespace LispLink.Package

open Source

/-! ## §1. Histories. -/

/-- A file gets new contents. -/
structure Update where
  file : FileId
  forms : List Sexp

/-- The latest contents of a file; a file that was never updated has none. -/
def latest (us : List Update) (file : FileId) : List Sexp :=
  ((us.reverse.find? (·.file = file)).map Update.forms).getD []

/-- The table behind several updates. -/
def Table.after (us : List Update) : Table :=
  us.foldl (fun t u => t.update u.file u.forms) .empty

/-- The registry behind several updates. -/
def Registry.after (us : List Update) : Registry :=
  us.foldl (fun r u => r.update u.file u.forms) .empty

/-- What the latest contents of a file say of a package. -/
def latestPage (us : List Update) (name : String) (file : FileId) : Page :=
  (FileFacts.ofForms (latest us file)).page name

theorem latest_concat (us : List Update) (u : Update) (file : FileId) :
    latest (us ++ [u]) file = if file = u.file then u.forms else latest us file := by
  have hrev : (us ++ [u]).reverse = u :: us.reverse := by simp
  unfold latest
  rw [hrev]
  by_cases hfile : file = u.file
  · rw [if_pos hfile, List.find?_cons_of_pos (by simpa using hfile.symm)]
    rfl
  · rw [if_neg hfile, List.find?_cons_of_neg (by simpa using Ne.symm hfile)]

theorem Table.after_concat (us : List Update) (u : Update) :
    Table.after (us ++ [u]) = (Table.after us).update u.file u.forms := List.foldl_append

theorem Registry.after_concat (us : List Update) (u : Update) :
    Registry.after (us ++ [u]) = (Registry.after us).update u.file u.forms := List.foldl_append

/-! ## §2. Answers. -/

/-- Everything that can be asked. -/
@[ext]
structure Answers where
  resolve : FileId → Nat → String
  visible : FileId → Nat → List String
  exports : String → List String
  uses : String → List String
  defined : String → List String
  range? : FileId → String → Option LineRange

def Table.answers (t : Table) : Answers where
  resolve := t.resolve
  visible := t.visible
  exports := t.exports
  uses := t.uses
  defined := t.defined
  range? := t.range?

def Registry.answers (r : Registry) : Answers where
  resolve file line := (r.resolve file line).name
  visible := r.visible
  exports name := (r.entry name).exports
  uses name := (r.entry name).uses
  defined name := (r.entry name).definedNames
  range? file name := (r.entry name).ranges.lookup file

/-- Packages by name: which are known besides the default one, and what is known of
each. -/
structure View where
  named : List String
  exports : String → List String
  uses : String → List String
  defined : String → List String
  range? : FileId → String → Option LineRange

namespace View

/-- Whether a package owns a line of a file. -/
def owns (v : View) (file : FileId) (line : Nat) (name : String) : Bool :=
  (v.range? file name).any (·.contains line)

/-- The first package that owns a line of a file, or the default package. -/
def resolve (v : View) (file : FileId) (line : Nat) : String :=
  ((defaultPackage :: v.named).find? (v.owns file line)).getD defaultPackage

/-- The names that the exports of a package add where `active` is current. -/
def exportedTo (v : View) (active name : String) : List String :=
  if (v.uses active).contains name then v.exports name
  else (v.exports name).map fun s => name ++ ":" ++ s

/-- The names that can be written on a line of a file. -/
def visible (v : View) (file : FileId) (line : Nat) : List String :=
  let active := v.resolve file line
  nameSet (v.defined active ++ v.exports active
    ++ ((defaultPackage :: v.named).filter (· ≠ active)).flatMap (v.exportedTo active))

def answers (v : View) : Answers where
  resolve := v.resolve
  visible := v.visible
  exports := v.exports
  uses := v.uses
  defined := v.defined
  range? := v.range?

/-- Whether a view shows what is on the pages of the packages: sets of names, and
every package of which any page says something. -/
structure Shows (v : View) (page : String → FileId → Page) : Prop where
  ascending : IsAscending v.named
  no_default : defaultPackage ∉ v.named
  complete : ∀ name, name ∉ defaultPackage :: v.named → ∀ file,
    (page name file).declared = none ∧ (page name file).range = none
  exports_ascending : ∀ name, IsAscending (v.exports name)
  uses_ascending : ∀ name, IsAscending (v.uses name)
  defined_ascending : ∀ name, IsAscending (v.defined name)
  mem_exports : ∀ name s, s ∈ v.exports name ↔
    ∃ file d, (page name file).declared = some d ∧ s ∈ d.exports
  mem_uses : ∀ name s, s ∈ v.uses name ↔
    ∃ file d, (page name file).declared = some d ∧ s ∈ d.uses
  mem_defined : ∀ name s, s ∈ v.defined name ↔ ∃ file, s ∈ (page name file).defined
  range?_eq : ∀ file name, v.range? file name = (page name file).range

/-- The first name that has something depends on the names that have it only. -/
theorem find?_eq_of_isAscending {ns ns' : List String} {q : String → Bool}
    (h : IsAscending ns) (h' : IsAscending ns')
    (hmem : ∀ name, q name = true → (name ∈ ns ↔ name ∈ ns')) : ns.find? q = ns'.find? q := by
  have hfilter : ns.filter q = ns'.filter q := by
    refine eq_of_isAscending (h.filter q) (h'.filter q) fun name => ?_
    rw [List.mem_filter, List.mem_filter]
    constructor
    · rintro ⟨hn, hq⟩
      exact ⟨(hmem name hq).1 hn, hq⟩
    · rintro ⟨hn, hq⟩
      exact ⟨(hmem name hq).2 hn, hq⟩
  rw [← List.head?_filter, hfilter, List.head?_filter]

section

variable {v w : View} {page : String → FileId → Page} (hv : v.Shows page) (hw : w.Shows page)

include hv

/-- A package that has something to show is known. -/
theorem mem_named_of_owns {file : FileId} {line : Nat} {name : String}
    (h : v.owns file line name = true) : name ∈ defaultPackage :: v.named := by
  refine Decidable.byContradiction fun hnot => ?_
  rw [owns, hv.range?_eq, (hv.complete name hnot file).2] at h
  cases h

theorem mem_named_of_exports {s name : String} (h : s ∈ v.exports name) :
    name ∈ defaultPackage :: v.named := by
  refine Decidable.byContradiction fun hnot => ?_
  obtain ⟨file, d, hd, _⟩ := (hv.mem_exports name s).1 h
  rw [(hv.complete name hnot file).1] at hd
  cases hd

theorem mem_named_of_exportedTo {s active name : String} (h : s ∈ v.exportedTo active name) :
    name ∈ defaultPackage :: v.named := by
  unfold exportedTo at h
  split at h
  · exact mem_named_of_exports hv h
  · obtain ⟨t, ht, _⟩ := List.mem_map.1 h
    exact mem_named_of_exports hv ht

theorem mem_visible_iff {file : FileId} {line : Nat} {s : String} :
    s ∈ v.visible file line ↔
      s ∈ v.defined (v.resolve file line) ∨ s ∈ v.exports (v.resolve file line)
        ∨ ∃ name, name ≠ v.resolve file line ∧ s ∈ v.exportedTo (v.resolve file line) name := by
  unfold visible
  dsimp only
  rw [mem_nameSet, List.mem_append, List.mem_append, or_assoc, List.mem_flatMap]
  refine or_congr_right (or_congr_right ?_)
  constructor
  · rintro ⟨name, hname, hs⟩
    exact ⟨name, of_decide_eq_true (List.mem_filter.1 hname).2, hs⟩
  · rintro ⟨name, hne, hs⟩
    exact ⟨name, List.mem_filter.2 ⟨mem_named_of_exportedTo hv hs, decide_eq_true hne⟩, hs⟩

include hw

theorem resolve_eq (hrange : v.range? = w.range?) : v.resolve = w.resolve := by
  have howns : v.owns = w.owns := by
    unfold owns
    rw [hrange]
  funext file line
  unfold resolve
  rw [← howns, List.find?_cons, List.find?_cons]
  cases hdefault : v.owns file line defaultPackage with
  | true => rfl
  | false =>
      refine congrArg (Option.getD · defaultPackage)
        (find?_eq_of_isAscending hv.ascending hw.ascending fun name hname => ?_)
      -- the default package does not own the line, so the owner is named by both
      have hne : name ≠ defaultPackage := by
        rintro rfl
        rw [hdefault] at hname
        cases hname
      have hn := List.mem_of_ne_of_mem hne (mem_named_of_owns hv hname)
      have hn' := List.mem_of_ne_of_mem hne
        (mem_named_of_owns hw (howns ▸ hname : w.owns file line name = true))
      exact iff_of_true hn hn'

/-- **Views of the same pages give the same answers**, whatever other names they
know. -/
theorem answers_eq : v.answers = w.answers := by
  have hexports : v.exports = w.exports := by
    funext name
    refine eq_of_isAscending (hv.exports_ascending name) (hw.exports_ascending name) fun s => ?_
    rw [hv.mem_exports, hw.mem_exports]
  have huses : v.uses = w.uses := by
    funext name
    refine eq_of_isAscending (hv.uses_ascending name) (hw.uses_ascending name) fun s => ?_
    rw [hv.mem_uses, hw.mem_uses]
  have hdefined : v.defined = w.defined := by
    funext name
    refine eq_of_isAscending (hv.defined_ascending name) (hw.defined_ascending name) fun s => ?_
    rw [hv.mem_defined, hw.mem_defined]
  -- what is known of a package is known from its pages; from here on the two views
  -- differ in the names that they know only
  have hrange : v.range? = w.range? := by
    funext file name
    rw [hv.range?_eq, hw.range?_eq]
  have hresolve := resolve_eq hv hw hrange
  have hadded : v.exportedTo = w.exportedTo := by
    unfold exportedTo
    rw [hexports, huses]
  have hvisible : v.visible = w.visible := by
    funext file line
    refine eq_of_isAscending (isAscending_nameSet _) (isAscending_nameSet _) fun s => ?_
    rw [mem_visible_iff hv, mem_visible_iff hw, hresolve, hdefined, hexports, hadded]
  exact Answers.ext hresolve hvisible hexports huses hdefined hrange

end

end View

/-! ## §3. The view of a registry. -/

namespace Registry

def view (r : Registry) : View where
  named := r.others.map Prod.fst
  exports name := (r.entry name).exports
  uses name := (r.entry name).uses
  defined name := (r.entry name).definedNames
  range? file name := (r.entry name).ranges.lookup file

section

variable {r : Registry} (hr : r.IsOrderly)

include hr

theorem resolve_eq_entry (file : FileId) (line : Nat) :
    r.resolve file line = r.entry (r.view.resolve file line) := by
  rw [resolve, packages_eq hr, List.find?_map, ← entry_default]
  exact Option.getD_map r.entry defaultPackage _

theorem visible_eq_view : r.visible = r.view.visible := by
  funext file line
  have hnames : ∀ active, (r.packages.filter (·.name ≠ active)).flatMap
        (exportedTo (r.entry active))
      = ((defaultPackage :: r.view.named).filter (· ≠ active)).flatMap
          (r.view.exportedTo active) := by
    intro active
    have hkept : (fun p : Entry => decide (p.name ≠ active)) ∘ r.entry
        = fun name => decide (name ≠ active) := by
      funext name
      rw [Function.comp_apply, name_entry hr]
    have hadded : exportedTo (r.entry active) ∘ r.entry = r.view.exportedTo active := by
      funext name
      rw [Function.comp_apply, exportedTo, name_entry hr]
      rfl
    rw [packages_eq hr, List.filter_map, hkept, List.flatMap_map]
    exact congrArg (List.flatMap · _) hadded
  rw [visible, View.visible]
  rw [resolve_eq_entry hr, name_entry hr, hnames]
  rfl

theorem answers_eq_view : r.answers = r.view.answers := by
  refine Answers.ext ?_ (visible_eq_view hr) rfl rfl rfl rfl
  funext file line
  show (r.resolve file line).name = _
  rw [resolve_eq_entry hr, name_entry hr]
  rfl

end

theorem isOrderly_after (us : List Update) : (after us).IsOrderly := by
  induction us using List.reverseRecOn with
  | nil => exact isOrderly_empty
  | append_singleton us u ih =>
      rw [after_concat]
      exact isOrderly_update ih u.file u.forms

theorem page_empty (name : String) (file : FileId) : (empty.entry name).page file = .blank := by
  rcases entry_cases isOrderly_empty name with ⟨_, hmem, _⟩ | hnew
  · rw [List.mem_singleton.1 hmem]
    rfl
  · rw [hnew]
    rfl

/-- **The pages of a registry say what the latest contents do.** -/
theorem page_after (us : List Update) (name : String) (file : FileId) :
    ((after us).entry name).page file = latestPage us name file := by
  induction us using List.reverseRecOn with
  | nil => exact page_empty name file
  | append_singleton us u ih =>
      rw [after_concat, page_update (isOrderly_after us), latestPage, latest_concat]
      by_cases hfile : file = u.file
      · rw [if_pos hfile, if_pos hfile]
      · rw [if_neg hfile, if_neg hfile]
        exact ih

theorem shows_after (us : List Update) : (after us).view.Shows (latestPage us) := by
  have hr := isOrderly_after us
  have hpage : latestPage us = fun name file => ((after us).entry name).page file := by
    funext name file
    exact (page_after us name file).symm
  rw [hpage]
  constructor
  case ascending => exact hr.ascending
  case no_default => exact hr.no_default
  case complete =>
    intro name hname file
    rcases entry_cases hr name with ⟨hmem, _⟩ | hnew
    · exact absurd hmem hname
    · rw [hnew]
      exact ⟨rfl, rfl⟩
  case exports_ascending => exact fun _ => isAscending_nameSet _
  case uses_ascending => exact fun _ => isAscending_nameSet _
  case defined_ascending => exact fun _ => isAscending_nameSet _
  case mem_exports => exact fun name _ => Entry.mem_exports_iff (isSingle_entry hr name)
  case mem_uses => exact fun name _ => Entry.mem_uses_iff (isSingle_entry hr name)
  case mem_defined => exact fun name _ => Entry.mem_definedNames_iff (isSingle_entry hr name)
  case range?_eq => exact fun _ _ => rfl

end Registry

/-! ## §4. The view of a table. -/

namespace FileFacts

variable {f : FileFacts} {name : String}

theorem mem_exportsOf_iff {s : String} :
    s ∈ f.exportsOf name ↔ ∃ d, (f.page name).declared = some d ∧ s ∈ d.exports := by
  unfold exportsOf page
  cases f.declarations.lookup name with
  | none => simp
  | some d => simp [Declaration.asSets]

theorem mem_usesOf_iff {s : String} :
    s ∈ f.usesOf name ↔ ∃ d, (f.page name).declared = some d ∧ s ∈ d.uses := by
  unfold usesOf page
  cases f.declarations.lookup name with
  | none => simp
  | some d => simp [Declaration.asSets]

theorem mem_keys_rebind {α : Type} {k : String} {a : α} {pairs : List (String × α)}
    (h : k ∈ (rebind name a pairs).map Prod.fst) : k = name ∨ k ∈ pairs.map Prod.fst :=
  (List.mem_cons.1 h).imp_right fun hk => (List.filter_sublist.map Prod.fst).subset hk

/-- A form adds no package to the declared ones and to those with lines but the one
that it names. -/
theorem mem_keys_push (form : Sexp)
    (h : name ∈ (f.push form).declarations.map Prod.fst
      ∨ name ∈ (f.push form).ranges.map Prod.fst) :
    packageOf? form = some name
      ∨ name ∈ f.declarations.map Prod.fst ∨ name ∈ f.ranges.map Prod.fst := by
  cases form with
  | atom a => exact .inr h
  | list outline role elements =>
      cases role with
      | package other uses exports =>
          rcases h with h | h
          · rcases mem_keys_rebind h with rfl | h
            · exact .inl rfl
            · exact .inr (.inl h)
          · exact .inr (.inr h)
      | inPackage other =>
          rcases h with h | h
          · exact .inr (.inl h)
          · rcases mem_keys_rebind h with rfl | h
            · exact .inl rfl
            · have hkept := (keys_filterMap_sublist (·.cutAt outline.start.line) f.ranges).subset h
              exact .inr (.inr hkept)
      | _ => exact .inr h

/-- The packages that a file declares or gives lines to are named by its forms. -/
theorem mem_keys_ofForms {forms : List Sexp}
    (h : name ∈ (ofForms forms).declarations.map Prod.fst
      ∨ name ∈ (ofForms forms).ranges.map Prod.fst) : name ∈ forms.filterMap packageOf? := by
  induction forms using List.reverseRecOn with
  | nil => rcases h with h | h <;> cases h
  | append_singleton forms form ih =>
      rw [ofForms, List.foldl_append] at h
      rw [List.filterMap_append, List.mem_append]
      rcases mem_keys_push form h with hform | h
      · exact .inr (List.mem_filterMap.2 ⟨form, List.mem_cons_self, hform⟩)
      · exact .inl (ih h)

/-- A package that the forms do not name is on no page of the file, but for the
definitions made in it. -/
theorem page_of_not_named {forms : List Sexp} (h : name ∉ forms.filterMap packageOf?) :
    ((ofForms forms).page name).declared = none ∧ ((ofForms forms).page name).range = none := by
  have hdeclared := lookup_eq_none_of_not_mem fun hk => h (mem_keys_ofForms (.inl hk))
  have hrange := lookup_eq_none_of_not_mem fun hk => h (mem_keys_ofForms (.inr hk))
  rw [page, hdeclared, hrange]
  exact ⟨rfl, rfl⟩

end FileFacts

namespace Table

variable {t : Table}

def view (t : Table) : View where
  named := t.named
  exports := t.exports
  uses := t.uses
  defined := t.defined
  range? := t.range?

theorem answers_eq_view (t : Table) : t.answers = t.view.answers := by
  have hresolve : t.resolve = t.view.resolve := by
    funext file line
    rw [resolve, owners, List.head?_filter]
    rfl
  refine Answers.ext hresolve ?_ rfl rfl rfl rfl
  funext file line
  show t.visible file line = _
  rw [visible, hresolve]
  rfl

theorem facts_update (t : Table) (file other : FileId) (forms : List Sexp) :
    (t.update file forms).facts other =
      if other = file then FileFacts.ofForms forms else t.facts other := by
  have hfiles : (t.update file forms).files = PerFile.put file (FileFacts.ofForms forms) t.files :=
    rfl
  rw [facts, hfiles]
  by_cases hother : other = file
  · rw [if_pos hother, hother, PerFile.lookup_put_self, Option.getD_some]
  · rw [if_neg hother, PerFile.lookup_put_of_ne hother, facts]

/-- **The facts of a table are those of the latest contents.** -/
theorem facts_after (us : List Update) (file : FileId) :
    (after us).facts file = FileFacts.ofForms (latest us file) := by
  induction us using List.reverseRecOn with
  | nil => rfl
  | append_singleton us u ih =>
      rw [after_concat, facts_update, latest_concat]
      by_cases hfile : file = u.file
      · rw [if_pos hfile, if_pos hfile]
      · rw [if_neg hfile, if_neg hfile]
        exact ih

/-- What updates keep: the known packages stand in order, the default one apart,
and every file has its facts once. -/
structure IsOrderly (t : Table) : Prop where
  ascending : IsAscending t.named
  no_default : defaultPackage ∉ t.named
  single : PerFile.IsSingle t.files
  complete : ∀ name, name ∉ t.packages → ∀ file,
    ((t.facts file).page name).declared = none ∧ ((t.facts file).page name).range = none

theorem isOrderly_update (ht : t.IsOrderly) (file : FileId) (forms : List Sexp) :
    (t.update file forms).IsOrderly where
  ascending := isAscending_insertNames ht.ascending
  no_default := by
    intro hmem
    rcases mem_insertNames.1 hmem with hnew | hold
    · exact of_decide_eq_true (List.mem_filter.1 hnew).2 rfl
    · exact ht.no_default hold
  single := PerFile.isSingle_put ht.single
  complete := by
    intro name hname other
    have hdefault : name ≠ defaultPackage := List.ne_of_not_mem_cons hname
    have hnamed := List.not_mem_of_not_mem_cons hname
    rw [facts_update]
    split
    · -- the forms of the file do not name the package, or it would be known now
      refine FileFacts.page_of_not_named fun hmem => hnamed (mem_insertNames.2 (.inl ?_))
      exact List.mem_filter.2 ⟨hmem, decide_eq_true hdefault⟩
    · refine ht.complete name ?_ other
      exact List.not_mem_cons_of_ne_of_not_mem hdefault fun hmem =>
        hnamed (mem_insertNames.2 (.inr hmem))

theorem isOrderly_after (us : List Update) : (after us).IsOrderly := by
  induction us using List.reverseRecOn with
  | nil => exact ⟨List.Pairwise.nil, nofun, List.nodup_nil, fun _ _ _ => ⟨rfl, rfl⟩⟩
  | append_singleton us u ih =>
      rw [after_concat]
      exact isOrderly_update ih u.file u.forms

/-- What is gathered from all files comes from the facts of some file. -/
theorem mem_nameSet_files {g : FileFacts → List String} {s : String} (ht : t.IsOrderly)
    (hempty : g .empty = []) :
    s ∈ nameSet (t.files.flatMap fun p => g p.2) ↔ ∃ file, s ∈ g (t.facts file) := by
  rw [mem_nameSet, PerFile.mem_flatMap_iff ht.single]
  constructor
  · rintro ⟨file, f, hlookup, hs⟩
    refine ⟨file, ?_⟩
    rw [facts, hlookup]
    exact hs
  · rintro ⟨file, hs⟩
    rw [facts] at hs
    cases hlookup : t.files.lookup file with
    | none =>
        rw [hlookup, Option.getD_none, hempty] at hs
        cases hs
    | some f =>
        rw [hlookup] at hs
        exact ⟨file, f, hlookup, hs⟩

theorem shows_after (us : List Update) : (after us).view.Shows (latestPage us) := by
  have ht := isOrderly_after us
  have hpage : latestPage us = fun name file => ((after us).facts file).page name := by
    funext name file
    rw [facts_after]
    rfl
  rw [hpage]
  constructor
  case ascending => exact ht.ascending
  case no_default => exact ht.no_default
  case complete => exact ht.complete
  case exports_ascending => exact fun _ => isAscending_nameSet _
  case uses_ascending => exact fun _ => isAscending_nameSet _
  case defined_ascending => exact fun _ => isAscending_nameSet _
  case mem_exports =>
    intro name s
    refine (mem_nameSet_files (g := fun f => f.exportsOf name) ht rfl).trans ?_
    exact exists_congr fun _ => FileFacts.mem_exportsOf_iff
  case mem_uses =>
    intro name s
    refine (mem_nameSet_files (g := fun f => f.usesOf name) ht rfl).trans ?_
    exact exists_congr fun _ => FileFacts.mem_usesOf_iff
  case mem_defined =>
    intro name s
    refine (mem_nameSet_files (g := fun f => f.definedIn name) ht rfl).trans ?_
    exact exists_congr fun _ => mem_nameSet.symm
  case range?_eq => exact fun _ _ => rfl

end Table

/-! ## §5. Only the latest contents count. -/

/-- **Table and registry answer alike.** -/
theorem answers_after (us : List Update) :
    (Registry.after us).answers = (Table.after us).answers := by
  rw [Registry.answers_eq_view (Registry.isOrderly_after us), Table.answers_eq_view]
  exact View.answers_eq (Registry.shows_after us) (Table.shows_after us)

theorem answers_of_latest {us vs : List Update} (h : ∀ file, latest us file = latest vs file) :
    (Table.after us).answers = (Table.after vs).answers := by
  have hpages : latestPage us = latestPage vs := by
    funext name file
    rw [latestPage, h, latestPage]
  have hshows := Table.shows_after us
  rw [hpages] at hshows
  rw [Table.answers_eq_view, Table.answers_eq_view]
  exact View.answers_eq hshows (Table.shows_after vs)

/-- **Only the latest contents count.**  The facts of a table and the pages of a
registry say what the latest contents of each file do, and both answer alike;
histories that end with the same contents of every file have the same answers.  So
updating a file twice is updating it once, updates of different files may change
places, and no update touches the facts of another file or its page in any
package. -/
theorem latest_contents_count :
    (∀ us, (Registry.after us).answers = (Table.after us).answers
        ∧ ∀ file, (Table.after us).facts file = FileFacts.ofForms (latest us file)
          ∧ ∀ name, ((Registry.after us).entry name).page file
              = (FileFacts.ofForms (latest us file)).page name)
      ∧ (∀ us vs, (∀ file, latest us file = latest vs file) →
          (Table.after us).answers = (Table.after vs).answers)
      ∧ (∀ us file forms,
          let t := (Table.after us).update file forms
          (t.update file forms).answers = t.answers)
      ∧ (∀ us file other forms forms', other ≠ file →
          (((Table.after us).update file forms).update other forms').answers
            = (((Table.after us).update other forms').update file forms).answers)
      ∧ ∀ us file other forms, other ≠ file →
          ((Table.after us).update file forms).facts other = (Table.after us).facts other
            ∧ ∀ name, (((Registry.after us).update file forms).entry name).page other
                = ((Registry.after us).entry name).page other := by
  refine ⟨?_, fun _ _ => answers_of_latest, ?_, ?_, ?_⟩
  · exact fun us => ⟨answers_after us, fun file =>
      ⟨Table.facts_after us file, fun name => Registry.page_after us name file⟩⟩
  · intro us file forms t
    have hlatest : ∀ f, latest (us ++ [⟨file, forms⟩] ++ [⟨file, forms⟩]) f
        = latest (us ++ [⟨file, forms⟩]) f := by
      intro f
      simp only [latest_concat]
      split <;> rfl
    simpa only [Table.after_concat] using answers_of_latest hlatest
  · intro us file other forms forms' hne
    have hlatest : ∀ f, latest (us ++ [⟨file, forms⟩] ++ [⟨other, forms'⟩]) f
        = latest (us ++ [⟨other, forms'⟩] ++ [⟨file, forms⟩]) f := by
      intro f
      simp only [latest_concat]
      by_cases hf : f = other
      · rw [if_pos hf, if_neg (hf ▸ hne), if_pos hf]
      · rw [if_neg hf, if_neg hf]
    simpa only [Table.after_concat] using answers_of_latest hlatest
  · intro us file other forms hne
    refine ⟨?_, fun name => ?_⟩
    · rw [Table.facts_update, if_neg hne]
    · rw [Registry.page_update (Registry.isOrderly_after us), if_neg hne]

/-- A package that is gone from its file is still known by name, and shows in no
answer. -/
theorem latest_contents_count_leftover :
    let a : FileId := ⟨"file:///a.lisp"⟩
    let b : FileId := ⟨"file:///b.lisp"⟩
    let old := parse "(defpackage :x (:export #:f))\n(in-package :x)\n(defun f ())\n"
    let new := parse "(in-package :y)\n(defun g ())\n"
    let us : List Update := [⟨a, old⟩, ⟨b, new⟩, ⟨a, new⟩]
    let vs : List Update := [⟨a, new⟩, ⟨b, new⟩]
    (∀ file, latest us file = latest vs file) ∧ b ≠ a
      ∧ (Table.after us).named = ["X", "Y"] ∧ (Table.after vs).named = ["Y"]
      ∧ (Table.after us).answers = (Table.after vs).answers
      ∧ (((Table.after us).update a old).update b old).answers
          = (((Table.after us).update b old).update a old).answers
      ∧ ((Table.after us).update a old).facts b = (Table.after us).facts b := by
  intro a b old new us vs
  have hlatest : ∀ file, latest us file = latest vs file := by
    intro file
    show latest ([] ++ [⟨a, old⟩] ++ [⟨b, new⟩] ++ [⟨a, new⟩]) file
      = latest ([] ++ [⟨a, new⟩] ++ [⟨b, new⟩]) file
    simp only [latest_concat]
    by_cases ha : file = a
    · rw [if_pos ha, if_pos ha, ite_self]
    · simp only [if_neg ha]
  have hne : b ≠ a := by decide
  obtain ⟨_, hsame, _, hswap, hframe⟩ := latest_contents_count
  refine ⟨hlatest, hne, ?_, ?_, hsame us vs hlatest, hswap us a b old old hne,
    (hframe us a b old hne).1⟩
  · decide +kernel
  · decide +kernel

end LispLink.Package
