/-
  LispLink.Proofs.Package.Ownership
  ────────────────────────────────
  **NO LINE HAS TWO OWNERS.**

  A switch changes the ranges of all packages of its file at once.  Wherever it
  stands, no range is left that ends before it begins, and no line is left in the
  ranges of two packages:

      separate ranges   ⟹   separate (switchRanges line target ranges)

  The ranges of a file come from its switches alone, so they are separate behind
  any forms, and so are those of every file behind any updates.

  A range that is cut back stops on the line before the cut.  `Registry.update?` is
  an update that stops dead when it has to name the line before the first one; it
  never does (`after?_eq`).
-/
import LispLink.Proofs.Package.Latest
import Mathlib.Data.Nat.PSub

namespace LispLink.Package

open Source

/-! ## §1. Ranges of one file. -/

namespace LineRange

/-- Whether a range does not stop before it starts. -/
def IsProper (r : LineRange) : Prop := ∀ l, r.last = some l → r.first ≤ l

/-- Whether no line is in both ranges. -/
def AreDisjoint (r s : LineRange) : Prop :=
  ∀ line, ¬ (r.contains line = true ∧ s.contains line = true)

theorem isProper_openFrom (line : Nat) : (openFrom line).IsProper := by
  intro l hl
  cases hl

/-- What is left of a range still has its first line. -/
theorem isProper_cutAt {r left : LineRange} {line : Nat} (h : r.IsProper)
    (hleft : r.cutAt line = some left) : left.IsProper := by
  unfold cutAt at hleft
  split at hleft
  · -- the range stops before the cut, and stays as it is
    cases hleft
    exact h
  · split at hleft
    · cases hleft
    · cases hleft
      intro l hl
      simp only [Option.some.injEq] at hl
      show r.first ≤ l
      omega

end LineRange

/-- Whether no package has two ranges, no range stops before it starts, and no line
has two owners. -/
structure AreSeparate (ranges : List (String × LineRange)) : Prop where
  single : (ranges.map Prod.fst).Nodup
  proper : ∀ p ∈ ranges, p.2.IsProper
  one_owner : ∀ name other x, ownsIn ranges name x = true → ownsIn ranges other x = true →
    name = other

namespace FileFacts

/-- What is in the ranges behind a switch: the range of its package, and what is
left of the ranges before. -/
theorem mem_switchRanges {ranges : List (String × LineRange)} {line : Nat} {target : String}
    {p : String × LineRange} (hp : p ∈ switchRanges line target ranges) :
    p = (target, .openFrom line) ∨ ∃ r, (p.1, r) ∈ ranges ∧ r.cutAt line = some p.2 := by
  unfold switchRanges rebind at hp
  rcases List.mem_cons.1 hp with hp | hp
  · exact .inl hp
  · right
    obtain ⟨⟨name, r⟩, hmem, hcut⟩ := List.mem_filterMap.1 (List.mem_filter.1 hp).1
    obtain ⟨left, hleft, rfl⟩ := Option.map_eq_some_iff.1 hcut
    exact ⟨r, hmem, hleft⟩

/-- **One switch**, on any line: what was separate stays separate. -/
theorem areSeparate_switchRanges {ranges : List (String × LineRange)} (h : AreSeparate ranges)
    (line : Nat) (target : String) : AreSeparate (switchRanges line target ranges) := by
  constructor
  case single => exact nodup_switchRanges h.single
  case proper =>
    intro p hp
    rcases mem_switchRanges hp with hp | ⟨r, hr, hcut⟩
    · rw [hp]
      exact LineRange.isProper_openFrom line
    · exact LineRange.isProper_cutAt (h.proper _ hr) hcut
  case one_owner =>
    intro name other x hname hother
    -- the new range has the lines from the switch on, the others those before it
    by_cases hn : name = target
    · by_cases ho : other = target
      · rw [hn, ho]
      · subst hn
        rw [ownsIn_switchRanges_self] at hname
        rw [ownsIn_switchRanges_of_ne h.single ho] at hother
        omega
    · by_cases ho : other = target
      · subst ho
        rw [ownsIn_switchRanges_of_ne h.single hn] at hname
        rw [ownsIn_switchRanges_self] at hother
        omega
      · rw [ownsIn_switchRanges_of_ne h.single hn] at hname
        rw [ownsIn_switchRanges_of_ne h.single ho] at hother
        exact h.one_owner name other x hname.1 hother.1

/-- **One form**: only a switch touches ranges. -/
theorem areSeparate_push {f : FileFacts} (h : AreSeparate f.ranges) (form : Sexp) :
    AreSeparate (f.push form).ranges := by
  cases form with
  | atom a => exact h
  | list outline role elements =>
      cases role with
      | inPackage name => exact areSeparate_switchRanges h outline.start.line name
      | _ => exact h

/-- **All forms**, in whatever order their lines come. -/
theorem areSeparate_ofForms (forms : List Sexp) : AreSeparate (ofForms forms).ranges := by
  induction forms using List.reverseRecOn with
  | nil =>
      refine ⟨List.nodup_nil, ?_, ?_⟩
      · intro p hp
        cases hp
      · intro name other x hname
        cases hname
  | append_singleton forms form ih =>
      unfold ofForms
      rw [List.foldl_append]
      exact areSeparate_push ih form

end FileFacts

/-! ## §2. The line before a line. -/

namespace LineRange

/-- Cut a range, if the line before the cut is a line wherever it is asked for. -/
def cutAt? (r : LineRange) (line : Nat) : Option (Option LineRange) :=
  if !r.reaches line then some (some r)
  else if line ≤ r.first then some none
  else line.ppred.map fun l => some ⟨r.first, some l⟩

/-- A cut that leaves something of a range is not on the first line of all. -/
theorem cutAt?_eq (r : LineRange) (line : Nat) : r.cutAt? line = some (r.cutAt line) := by
  unfold cutAt? cutAt
  split
  · rfl
  · split
    · rfl
    · next hfirst =>
        obtain ⟨l, rfl⟩ : ∃ l, line = l + 1 := Nat.exists_eq_add_one.2 (by omega)
        simp only [Nat.ppred_succ, Option.map_some, Nat.add_sub_cancel]

end LineRange

namespace Entry

/-- Take away the lines of a file from a line on, if there is a line before it. -/
def cut? (file : FileId) (line : Nat) (p : Entry) : Option Entry :=
  match p.ranges.lookup file with
  | none => some p
  | some r =>
    (r.cutAt? line).map fun
      | some left => { p with ranges := p.ranges.put file left }
      | none => { p with ranges := p.ranges.forget file }

theorem cut?_eq (file : FileId) (line : Nat) (p : Entry) :
    p.cut? file line = some (p.cut file line) := by
  unfold cut? cut
  cases p.ranges.lookup file with
  | none => rfl
  | some r =>
      show (r.cutAt? line).map _ = some (match r.cutAt line with
        | some left => { p with ranges := p.ranges.put file left }
        | none => { p with ranges := p.ranges.forget file })
      rw [LineRange.cutAt?_eq]
      cases r.cutAt line <;> rfl

end Entry

namespace Registry

/-- A switch that stops where there is no line before it and one is needed. -/
def switchAt? (file : FileId) (line : Nat) (target : String) (r : Registry) :
    Option Registry := do
  let default ← r.default.cut? file line
  let others ← r.others.mapM fun (k, p) => (p.cut? file line).map (k, ·)
  return (Registry.mk default others).alter target (.own file line)

/-- Follow one top-level form, with such a switch. -/
def replay? (file : FileId) (s : Registry × String) (form : Sexp) : Option (Registry × String) :=
  match form with
  | .list outline (.inPackage name) _ =>
    (s.1.switchAt? file outline.start.line name).map (·, name)
  | form => some (replay file s form)

/-- An update with such switches. -/
def update? (r : Registry) (file : FileId) (forms : List Sexp) : Option Registry :=
  (forms.foldlM (replay? file) (r.each (.forget file), defaultPackage)).map Prod.fst

/-- Several updates with such switches. -/
def after? (us : List Update) : Option Registry :=
  us.foldlM (fun r u => r.update? u.file u.forms) empty

theorem switchAt?_eq (file : FileId) (line : Nat) (target : String) (r : Registry) :
    r.switchAt? file line target = some (r.switchAt file line target) := by
  have hothers : (r.others.mapM fun (k, p) => (p.cut? file line).map (k, ·))
      = some (r.others.map fun (k, p) => (k, p.cut file line)) := by
    simp only [Entry.cut?_eq, Option.map_some]
    exact List.mapM_pure
  unfold switchAt?
  rw [Entry.cut?_eq, hothers]
  rfl

theorem replay?_eq (file : FileId) (s : Registry × String) (form : Sexp) :
    replay? file s form = some (replay file s form) := by
  unfold replay?
  split
  · rw [switchAt?_eq]
    rfl
  · rfl

theorem update?_eq (r : Registry) (file : FileId) (forms : List Sexp) :
    r.update? file forms = some (r.update file forms) := by
  have hreplay : replay? file = fun s form => pure (replay file s form) := by
    funext s form
    exact replay?_eq file s form
  unfold update? update
  rw [hreplay, List.foldlM_pure]
  rfl

/-- **No update asks for the line before the first one.** -/
theorem after?_eq (us : List Update) : after? us = some (after us) := by
  unfold after? after
  simp only [update?_eq]
  exact List.foldlM_pure

end Registry

/-! ## §3. Ranges of all files. -/

/-- Where of any two elements at most one has something, at most one has it. -/
theorem length_filter_le_one {α : Type} {q : α → Bool} {as : List α}
    (h : as.Pairwise fun a b => ¬ (q a = true ∧ q b = true)) : (as.filter q).length ≤ 1 := by
  induction as with
  | nil => exact Nat.zero_le 1
  | cons a as ih =>
      obtain ⟨hfirst, hrest⟩ := List.pairwise_cons.1 h
      rw [List.filter_cons]
      split
      · next ha =>
          -- nothing behind the first one has it
          have hnone : as.filter q = [] := by
            rw [List.filter_eq_nil_iff]
            intro b hb hqb
            exact hfirst b hb ⟨ha, hqb⟩
          simp [hnone]
      · exact ih hrest

/-- Whether a package owns a line of a file. -/
def Entry.owns (file : FileId) (line : Nat) (p : Entry) : Bool :=
  (p.ranges.lookup file).any (·.contains line)

namespace Registry

/-- No name stands for two packages. -/
theorem nodup_names {r : Registry} (hr : r.IsOrderly) : (r.packages.map Entry.name).Nodup := by
  have hnames : r.packages.map Entry.name = defaultPackage :: r.others.map Prod.fst := by
    rw [packages_eq hr, List.map_map]
    have hname : Entry.name ∘ r.entry = id := by
      funext name
      exact name_entry hr name
    rw [hname, List.map_id]
  rw [hnames, List.nodup_cons]
  exact ⟨hr.no_default, nodup_keys hr⟩

/-- The ranges of a package are those that the latest contents of the files say. -/
theorem lookup_ranges_after {us : List Update} {p : Entry} (hp : p ∈ (after us).packages)
    (file : FileId) :
    p.ranges.lookup file = (FileFacts.ofForms (latest us file)).ranges.lookup p.name := by
  have hr := isOrderly_after us
  rw [packages_eq hr] at hp
  obtain ⟨name, _, rfl⟩ := List.mem_map.1 hp
  rw [name_entry hr]
  exact congrArg Page.range (page_after us name file)

theorem isProper_of_mem_ranges {us : List Update} {p : Entry} (hp : p ∈ (after us).packages)
    {fr : FileId × LineRange} (hfr : fr ∈ p.ranges) : fr.2.IsProper := by
  have hsingle := ((isOrderly_after us).single p hp).ranges
  have hseparate := FileFacts.areSeparate_ofForms (latest us fr.1)
  have hlookup : p.ranges.lookup fr.1 = some fr.2 := (lookup_eq_some_iff_mem hsingle).2 hfr
  rw [lookup_ranges_after hp, lookup_eq_some_iff_mem hseparate.single] at hlookup
  exact hseparate.proper _ hlookup

/-- Packages that own the same line of a file have the same name. -/
theorem name_eq_of_owns {us : List Update} {p q : Entry} (hp : p ∈ (after us).packages)
    (hq : q ∈ (after us).packages) {file : FileId} {line : Nat}
    (hpowns : p.owns file line = true) (hqowns : q.owns file line = true) : p.name = q.name := by
  unfold Entry.owns at hpowns hqowns
  rw [lookup_ranges_after hp] at hpowns
  rw [lookup_ranges_after hq] at hqowns
  exact (FileFacts.areSeparate_ofForms (latest us file)).one_owner _ _ line hpowns hqowns

/-- Packages of different names have no line of a file both. -/
theorem areDisjoint_of_ne {us : List Update} {p q : Entry} (hp : p ∈ (after us).packages)
    (hq : q ∈ (after us).packages) (hne : p.name ≠ q.name) {file : FileId} {a b : LineRange}
    (ha : (file, a) ∈ p.ranges) (hb : (file, b) ∈ q.ranges) : a.AreDisjoint b := by
  have hr := isOrderly_after us
  intro line hline
  have hpowns : p.owns file line = true := by
    unfold Entry.owns
    rw [(lookup_eq_some_iff_mem (hr.single p hp).ranges).2 ha]
    exact hline.1
  have hqowns : q.owns file line = true := by
    unfold Entry.owns
    rw [(lookup_eq_some_iff_mem (hr.single q hq).ranges).2 hb]
    exact hline.2
  exact hne (name_eq_of_owns hp hq hpowns hqowns)

end Registry

namespace Table

/-- Of the packages of a table at most one owns a line. -/
theorem length_owners_le_one (us : List Update) (file : FileId) (line : Nat) :
    ((after us).owners file line).length ≤ 1 := by
  have ht := isOrderly_after us
  have hnodup : (after us).packages.Nodup :=
    List.nodup_cons.2 ⟨ht.no_default, nodup_of_isAscending ht.ascending⟩
  unfold owners
  apply length_filter_le_one
  refine hnodup.imp ?_
  intro name other hne howns
  apply hne
  unfold range? at howns
  rw [facts_after] at howns
  exact (FileFacts.areSeparate_ofForms (latest us file)).one_owner _ _ line howns.1 howns.2

end Table

/-! ## §4. What updates keep. -/

/-- **No line has two owners**, whatever files are updated with whatever forms.  No
cut asks for the line before the first one, and so no update does.  No range stops
before it starts; the packages have different names, and their ranges in a file have
no line in common, so that at most one of them owns a line, for the registry as for
the table, which answers alike.  The default package stands apart under its own name
and is not among the others, and those are kept under their names. -/
theorem lines_have_one_owner (us : List Update) :
    let r := Registry.after us
    (∀ (a : LineRange) (line : Nat), a.cutAt? line = some (a.cutAt line))
      ∧ Registry.after? us = some r
      ∧ r.answers = (Table.after us).answers
      ∧ (∀ p ∈ r.packages, ∀ fr ∈ p.ranges, fr.2.IsProper)
      ∧ (r.packages.Pairwise fun p q => p.name ≠ q.name
          ∧ ∀ file a b, (file, a) ∈ p.ranges → (file, b) ∈ q.ranges → a.AreDisjoint b)
      ∧ (∀ file line, (r.packages.filter (Entry.owns file line)).length ≤ 1
          ∧ ((Table.after us).owners file line).length ≤ 1)
      ∧ r.default.name = defaultPackage
      ∧ defaultPackage ∉ r.others.map Prod.fst
      ∧ ∀ kp ∈ r.others, kp.2.name = kp.1 := by
  intro r
  have hr : r.IsOrderly := Registry.isOrderly_after us
  have hnames : r.packages.Pairwise fun p q => p.name ≠ q.name :=
    List.pairwise_map.1 (Registry.nodup_names hr)
  refine ⟨LineRange.cutAt?_eq, Registry.after?_eq us, answers_after us, ?_, ?_, ?_,
    hr.default_name, hr.no_default, hr.keyed⟩
  · intro p hp fr hfr
    exact Registry.isProper_of_mem_ranges hp hfr
  · refine hnames.imp_of_mem ?_
    intro p q hp hq hne
    refine ⟨hne, ?_⟩
    intro file a b ha hb
    exact Registry.areDisjoint_of_ne hp hq hne ha hb
  · intro file line
    refine ⟨?_, Table.length_owners_le_one us file line⟩
    apply length_filter_le_one
    refine hnames.imp_of_mem ?_
    intro p q hp hq hne howns
    exact hne (Registry.name_eq_of_owns hp hq howns.1 howns.2)

/-- To a package and back to it, and two switches on the first line: the first package
is left with nothing, the others with lines apart. -/
theorem lines_have_one_owner_return :
    let file : FileId := ⟨"file:///a.lisp"⟩
    let us : List Update :=
      [⟨file, parse "(in-package :a) (in-package :b)\n(in-package :c)\n\n(in-package :b)\n"⟩]
    let r := Registry.after us
    let rest : LineRange := ⟨3, none⟩
    let between : LineRange := ⟨1, some 2⟩
    Registry.after? us = some r
      ∧ r.packages.map (fun p => (p.name, p.ranges))
        = [("CL-USER", []), ("A", []), ("B", [(file, rest)]), ("C", [(file, between)])]
      ∧ rest.AreDisjoint between ∧ between.IsProper
      ∧ (r.packages.filter (Entry.owns file 2)).length ≤ 1 := by
  intro file us r rest between
  obtain ⟨_, hline, _, hproper, hpairs, howners, _⟩ := lines_have_one_owner us
  obtain ⟨b, hb, hbranges⟩ : ∃ b, r.packages[2]? = some b ∧ b.ranges = [(file, rest)] :=
    (Option.map_eq_some_iff (f := Entry.ranges)).1 (by decide +kernel)
  obtain ⟨c, hc, hcranges⟩ : ∃ c, r.packages[3]? = some c ∧ c.ranges = [(file, between)] :=
    (Option.map_eq_some_iff (f := Entry.ranges)).1 (by decide +kernel)
  have hrest : (file, rest) ∈ b.ranges := by simp [hbranges]
  have hbetween : (file, between) ∈ c.ranges := by simp [hcranges]
  refine ⟨hline, by decide +kernel, ?_, ?_, (howners file 2).1⟩
  · obtain ⟨hi, rfl⟩ := List.getElem?_eq_some_iff.1 hb
    obtain ⟨hj, rfl⟩ := List.getElem?_eq_some_iff.1 hc
    have hpair := List.pairwise_iff_getElem.1 hpairs 2 3 hi hj (by omega)
    exact hpair.2 file rest between hrest hbetween
  · exact hproper c (List.mem_of_getElem? hc) _ hbetween

end LispLink.Package
