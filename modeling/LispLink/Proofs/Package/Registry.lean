/-
  LispLink.Proofs.Package.Registry
  ────────────────────────────────
  **PACKAGES AND THEIR PAGES.**

  A registry keeps what is known by package: each package has a page for every
  file that says something of it, with what the file declares, the lines that the
  package owns there and the names that are defined.  An update tears out the
  pages of its file everywhere and writes them anew, form by form.

      page name file  =  what the facts of the file say of the package

  The default package stands apart.  A package that was named once keeps its
  place, even if no file says anything of it any more.
-/
import LispLink.Package.Table
import LispLink.Proofs.Package.Ranges

namespace LispLink.Package

open Source

/-! ## §1. Values by file. -/

/-- A value for each of some files. -/
abbrev PerFile (α : Type) := List (FileId × α)

namespace PerFile

variable {α : Type}

/-- Drop the value of a file. -/
def forget (file : FileId) (m : PerFile α) : PerFile α := m.filter (·.1 ≠ file)

/-- Give a file its value. -/
def put (file : FileId) (a : α) (m : PerFile α) : PerFile α := (file, a) :: m.forget file

/-- Whether no file has two values. -/
def IsSingle (m : PerFile α) : Prop := (m.map Prod.fst).Nodup

variable {file other : FileId} {a : α} {m : PerFile α}

theorem not_mem_forget : file ∉ (m.forget file).map Prod.fst := by
  intro hmem
  obtain ⟨p, hp, hfile⟩ := List.mem_map.1 hmem
  exact of_decide_eq_true (List.mem_filter.1 hp).2 hfile

theorem lookup_forget_self : (m.forget file).lookup file = none :=
  lookup_eq_none_of_not_mem not_mem_forget

theorem lookup_forget_of_ne (h : other ≠ file) :
    (m.forget file).lookup other = m.lookup other := lookup_filter_ne h

theorem lookup_put_self : (m.put file a).lookup file = some a := List.lookup_cons_self

theorem lookup_put_of_ne (h : other ≠ file) : (m.put file a).lookup other = m.lookup other := by
  rw [put, List.lookup_cons, beq_eq_false_iff_ne.2 h]
  exact lookup_forget_of_ne h

theorem isSingle_forget (h : m.IsSingle) : (m.forget file).IsSingle :=
  h.sublist (List.filter_sublist.map Prod.fst)

theorem isSingle_put (h : m.IsSingle) : (m.put file a).IsSingle := by
  rw [IsSingle, put, List.map_cons, List.nodup_cons]
  exact ⟨not_mem_forget, isSingle_forget h⟩

/-- What the values of all files hold is what some file's value holds. -/
theorem mem_flatMap_iff {β : Type} {g : α → List β} {b : β} (h : m.IsSingle) :
    b ∈ m.flatMap (fun p => g p.2) ↔ ∃ file a, m.lookup file = some a ∧ b ∈ g a := by
  rw [List.mem_flatMap]
  constructor
  · rintro ⟨⟨file, a⟩, hmem, hb⟩
    exact ⟨file, a, (lookup_eq_some_iff_mem h).2 hmem, hb⟩
  · rintro ⟨file, a, hlookup, hb⟩
    exact ⟨(file, a), (lookup_eq_some_iff_mem h).1 hlookup, hb⟩

end PerFile

/-! ## §2. A package. -/

/-- What one file says of one package: what it declares, the lines that the
package owns, and the names that are defined in it. -/
structure Page where
  declared : Option Declaration
  range : Option LineRange
  defined : List String

/-- The page that nothing is on. -/
def Page.blank : Page := ⟨none, none, []⟩

/-- A declaration whose names are sets. -/
def Declaration.asSets (d : Declaration) : Declaration := ⟨nameSet d.exports, nameSet d.uses⟩

/-- What is kept of a package, by file. -/
structure Entry where
  name : String
  declared : PerFile Declaration
  ranges : PerFile LineRange
  defined : PerFile (List String)

namespace Entry

/-- A package that no file says anything of. -/
def new (name : String) : Entry := ⟨name, [], [], []⟩

/-- The page of a file. -/
def page (p : Entry) (file : FileId) : Page :=
  ⟨p.declared.lookup file, p.ranges.lookup file, (p.defined.lookup file).getD []⟩

/-- Tear out the page of a file. -/
def forget (file : FileId) (p : Entry) : Entry :=
  { p with
    declared := p.declared.forget file
    ranges := p.ranges.forget file
    defined := p.defined.forget file }

/-- Write down what a file declares. -/
def declare (file : FileId) (d : Declaration) (p : Entry) : Entry :=
  { p with declared := p.declared.put file d }

/-- Write down that a file defines a name. -/
def define (file : FileId) (s : String) (p : Entry) : Entry :=
  { p with defined := p.defined.put file (insertName s ((p.defined.lookup file).getD [])) }

/-- Take away the lines of a file from a line on. -/
def cut (file : FileId) (line : Nat) (p : Entry) : Entry :=
  match p.ranges.lookup file with
  | none => p
  | some r =>
    match r.cutAt line with
    | some left => { p with ranges := p.ranges.put file left }
    | none => { p with ranges := p.ranges.forget file }

/-- Give the package the lines of a file from a line on. -/
def own (file : FileId) (line : Nat) (p : Entry) : Entry :=
  { p with ranges := p.ranges.put file (.openFrom line) }

/-- The exports of the package, over all files. -/
def exports (p : Entry) : List String := nameSet (p.declared.flatMap fun d => d.2.exports)

/-- The packages that the package uses, over all files. -/
def uses (p : Entry) : List String := nameSet (p.declared.flatMap fun d => d.2.uses)

/-- The names defined in the package, over all files. -/
def definedNames (p : Entry) : List String := nameSet (p.defined.flatMap fun d => d.2)

/-- Whether there is at most one of each thing for a file. -/
structure IsSingle (p : Entry) : Prop where
  declared : p.declared.IsSingle
  ranges : p.ranges.IsSingle
  defined : p.defined.IsSingle

theorem isSingle_new (name : String) : (new name).IsSingle :=
  ⟨List.nodup_nil, List.nodup_nil, List.nodup_nil⟩

/-- Whether `g` turns the page of one file as `h` says, and does nothing else to a
package. -/
structure Turns (file : FileId) (g : Entry → Entry) (h : Page → Page) : Prop where
  name : ∀ p, (g p).name = p.name
  page : ∀ p, (g p).page file = h (p.page file)
  elsewhere : ∀ p other, other ≠ file → (g p).page other = p.page other
  isSingle : ∀ {p}, p.IsSingle → (g p).IsSingle

theorem turns_forget (file : FileId) : Turns file (forget file) fun _ => .blank where
  name _ := rfl
  page p := by
    simp only [page, forget, PerFile.lookup_forget_self]
    rfl
  elsewhere p other h := by
    simp only [page, forget, PerFile.lookup_forget_of_ne h]
  isSingle h :=
    ⟨PerFile.isSingle_forget h.declared, PerFile.isSingle_forget h.ranges,
      PerFile.isSingle_forget h.defined⟩

theorem turns_declare (file : FileId) (d : Declaration) :
    Turns file (declare file d) fun page => { page with declared := some d } where
  name _ := rfl
  page p := by simp only [page, declare, PerFile.lookup_put_self]
  elsewhere p other h := by simp only [page, declare, PerFile.lookup_put_of_ne h]
  isSingle h := ⟨PerFile.isSingle_put h.declared, h.ranges, h.defined⟩

theorem turns_define (file : FileId) (s : String) :
    Turns file (define file s) fun page => { page with defined := insertName s page.defined } where
  name _ := rfl
  page p := by simp only [page, define, PerFile.lookup_put_self, Option.getD_some]
  elsewhere p other h := by simp only [page, define, PerFile.lookup_put_of_ne h]
  isSingle h := ⟨h.declared, h.ranges, PerFile.isSingle_put h.defined⟩

theorem turns_own (file : FileId) (line : Nat) :
    Turns file (own file line) fun page => { page with range := some (.openFrom line) } where
  name _ := rfl
  page p := by simp only [page, own, PerFile.lookup_put_self]
  elsewhere p other h := by simp only [page, own, PerFile.lookup_put_of_ne h]
  isSingle h := ⟨h.declared, PerFile.isSingle_put h.ranges, h.defined⟩

/-- Cutting leaves a package with other ranges, or as it is. -/
theorem cut_eq (file : FileId) (line : Nat) (p : Entry) :
    ∃ ranges, p.cut file line = { p with ranges }
      ∧ ranges.lookup file = (p.ranges.lookup file).bind (·.cutAt line)
      ∧ (∀ other, other ≠ file → ranges.lookup other = p.ranges.lookup other)
      ∧ (p.ranges.IsSingle → ranges.IsSingle) := by
  unfold cut
  cases hr : p.ranges.lookup file with
  | none => exact ⟨p.ranges, rfl, hr, fun _ _ => rfl, id⟩
  | some r =>
      cases hleft : r.cutAt line with
      | some left =>
          refine ⟨p.ranges.put file left, ?_, ?_, ?_, PerFile.isSingle_put⟩
          · dsimp only
            rw [hleft]
          · rw [PerFile.lookup_put_self]
            exact hleft.symm
          · exact fun _ => PerFile.lookup_put_of_ne
      | none =>
          refine ⟨p.ranges.forget file, ?_, ?_, ?_, PerFile.isSingle_forget⟩
          · dsimp only
            rw [hleft]
          · rw [PerFile.lookup_forget_self]
            exact hleft.symm
          · exact fun _ => PerFile.lookup_forget_of_ne

theorem turns_cut (file : FileId) (line : Nat) :
    Turns file (cut file line) fun page =>
      { page with range := page.range.bind (·.cutAt line) } where
  name p := by
    obtain ⟨ranges, heq, _⟩ := cut_eq file line p
    rw [heq]
  page p := by
    obtain ⟨ranges, heq, hself, _⟩ := cut_eq file line p
    simp only [page, heq, hself]
  elsewhere p other h := by
    obtain ⟨ranges, heq, _, hother, _⟩ := cut_eq file line p
    simp only [page, heq, hother other h]
  isSingle {p} h := by
    obtain ⟨ranges, heq, _, _, hsingle⟩ := cut_eq file line p
    rw [heq]
    exact ⟨h.declared, hsingle h.ranges, h.defined⟩

section

variable {p : Entry} (h : p.IsSingle)

include h

theorem mem_exports_iff {s : String} :
    s ∈ p.exports ↔ ∃ file d, (p.page file).declared = some d ∧ s ∈ d.exports := by
  rw [exports, mem_nameSet]
  exact PerFile.mem_flatMap_iff h.declared

theorem mem_uses_iff {s : String} :
    s ∈ p.uses ↔ ∃ file d, (p.page file).declared = some d ∧ s ∈ d.uses := by
  rw [uses, mem_nameSet]
  exact PerFile.mem_flatMap_iff h.declared

theorem mem_definedNames_iff {s : String} :
    s ∈ p.definedNames ↔ ∃ file, s ∈ (p.page file).defined := by
  rw [definedNames, mem_nameSet]
  refine (PerFile.mem_flatMap_iff (g := id) h.defined).trans ?_
  constructor
  · rintro ⟨file, names, hlookup, hs⟩
    refine ⟨file, ?_⟩
    rw [page, hlookup]
    exact hs
  · rintro ⟨file, hs⟩
    rw [page] at hs
    cases hlookup : p.defined.lookup file with
    | none =>
        rw [hlookup] at hs
        cases hs
    | some names =>
        rw [hlookup] at hs
        exact ⟨file, names, hlookup, hs⟩

end

end Entry

/-! ## §3. The registry. -/

/-- Packages by name, the default one apart. -/
structure Registry where
  default : Entry
  /-- The other packages that were ever named, in the order of their names. -/
  others : List (String × Entry)

namespace Registry

/-- No packages but the default one. -/
def empty : Registry := ⟨.new defaultPackage, []⟩

/-- Every package, the default one first. -/
def packages (r : Registry) : List Entry := r.default :: r.others.map Prod.snd

/-- The package of a name, if it is known. -/
def get? (r : Registry) (name : String) : Option Entry :=
  if name = defaultPackage then some r.default else r.others.lookup name

/-- The package of a name; one that is not known has nothing on its pages. -/
def entry (r : Registry) (name : String) : Entry := (r.get? name).getD (.new name)

/-- Change every package. -/
def each (g : Entry → Entry) (r : Registry) : Registry :=
  ⟨g r.default, r.others.map fun (k, p) => (k, g p)⟩

/-- Change the package of a name in a list that is in order; one that is missing
is put where it belongs. -/
def alterIn (name : String) (g : Entry → Entry) : List (String × Entry) → List (String × Entry)
  | [] => [(name, g (.new name))]
  | (k, p) :: rest =>
    if name < k then (name, g (.new name)) :: (k, p) :: rest
    else if name = k then (k, g p) :: rest
    else (k, p) :: alterIn name g rest

/-- Change the package of a name. -/
def alter (name : String) (g : Entry → Entry) (r : Registry) : Registry :=
  if name = defaultPackage then { r with default := g r.default }
  else { r with others := alterIn name g r.others }

/-- Give a package the lines of a file from a line on, and take them away from all
others. -/
def switchAt (file : FileId) (line : Nat) (target : String) (r : Registry) : Registry :=
  (r.each (.cut file line)).alter target (.own file line)

/-- Follow one top-level form of a file, in the package that is current. -/
def replay (file : FileId) (s : Registry × String) (form : Sexp) : Registry × String :=
  match form with
  | .list _ (.package name uses exports) _ =>
    (s.1.alter name (.declare file ⟨nameSet exports, nameSet uses⟩), s.2)
  | .list outline (.inPackage name) _ => (s.1.switchAt file outline.start.line name, name)
  | .list _ (.function name _ _) _ => (s.1.alter s.2 (.define file name), s.2)
  | _ => s

/-- Replace whatever a file said by what its forms say. -/
def update (r : Registry) (file : FileId) (forms : List Sexp) : Registry :=
  (forms.foldl (replay file) (r.each (.forget file), defaultPackage)).1

/-- The package that is current on a line of a file: the first that owns it, or the
default package. -/
def resolve (r : Registry) (file : FileId) (line : Nat) : Entry :=
  (r.packages.find? fun p => (p.ranges.lookup file).any (·.contains line)).getD r.default

/-- The names that the exports of a package add where `active` is current. -/
def exportedTo (active p : Entry) : List String :=
  if active.uses.contains p.name then p.exports else p.exports.map fun s => p.name ++ ":" ++ s

/-- The names that can be written on a line of a file. -/
def visible (r : Registry) (file : FileId) (line : Nat) : List String :=
  let active := r.resolve file line
  nameSet (active.definedNames ++ active.exports
    ++ (r.packages.filter (·.name ≠ active.name)).flatMap (exportedTo active))

/-! ## §4. Registries in order. -/

/-- What updates keep: packages stand in order under their own names, the default
one stands apart only, and no page is there twice. -/
structure IsOrderly (r : Registry) : Prop where
  default_name : r.default.name = defaultPackage
  ascending : IsAscending (r.others.map Prod.fst)
  no_default : defaultPackage ∉ r.others.map Prod.fst
  keyed : ∀ kp ∈ r.others, kp.2.name = kp.1
  single : ∀ p ∈ r.packages, p.IsSingle

variable {r : Registry} {g : Entry → Entry} {h : Page → Page} {file : FileId}
  {name other : String}

theorem isOrderly_empty : empty.IsOrderly where
  default_name := rfl
  ascending := List.Pairwise.nil
  no_default := nofun
  keyed := nofun
  single := List.forall_mem_singleton.2 (Entry.isSingle_new defaultPackage)

theorem keys_each : (r.each g).others.map Prod.fst = r.others.map Prod.fst := by
  rw [each, List.map_map]
  rfl

theorem packages_each : (r.each g).packages = r.packages.map g := by
  rw [packages, packages, each, List.map_cons, List.map_map, List.map_map]
  rfl

theorem isOrderly_each (hr : r.IsOrderly) (hg : Entry.Turns file g h) :
    (r.each g).IsOrderly where
  default_name := (hg.name _).trans hr.default_name
  ascending := by
    rw [keys_each]
    exact hr.ascending
  no_default := by
    rw [keys_each]
    exact hr.no_default
  keyed := by
    intro kp hkp
    obtain ⟨⟨k, p⟩, hmem, rfl⟩ := List.mem_map.1 hkp
    exact (hg.name p).trans (hr.keyed _ hmem)
  single := by
    rw [packages_each]
    intro p hp
    obtain ⟨q, hq, rfl⟩ := List.mem_map.1 hp
    exact hg.isSingle (hr.single q hq)

/-! ### A list in order. -/

section

variable {m : List (String × Entry)}

theorem keys_alterIn : (alterIn name g m).map Prod.fst = insertName name (m.map Prod.fst) := by
  induction m with
  | nil => rfl
  | cons kp m ih =>
      obtain ⟨k, p⟩ := kp
      rw [List.map_cons, alterIn, insertName]
      split
      · rfl
      · split
        · rfl
        · rw [List.map_cons, ih]

/-- What is in the changed list: the changed package, and packages that were there
before. -/
theorem mem_alterIn {kp : String × Entry} (hkp : kp ∈ alterIn name g m) :
    kp ∈ m ∨ kp = (name, g (.new name)) ∨ ∃ p, (name, p) ∈ m ∧ kp = (name, g p) := by
  induction m with
  | nil => exact .inr (.inl (List.mem_singleton.1 hkp))
  | cons kp' m ih =>
      obtain ⟨k, p⟩ := kp'
      rw [alterIn] at hkp
      split at hkp
      · rcases List.mem_cons.1 hkp with rfl | hkp
        · exact .inr (.inl rfl)
        · exact .inl hkp
      · split at hkp
        · next heq =>
            subst heq
            rcases List.mem_cons.1 hkp with rfl | hkp
            · exact .inr (.inr ⟨p, List.mem_cons_self, rfl⟩)
            · exact .inl (List.mem_cons_of_mem _ hkp)
        · rcases List.mem_cons.1 hkp with rfl | hkp
          · exact .inl List.mem_cons_self
          · rcases ih hkp with hkp | hkp | ⟨q, hq, hkp⟩
            · exact .inl (List.mem_cons_of_mem _ hkp)
            · exact .inr (.inl hkp)
            · exact .inr (.inr ⟨q, List.mem_cons_of_mem _ hq, hkp⟩)

theorem lookup_alterIn_of_ne (hne : other ≠ name) :
    (alterIn name g m).lookup other = m.lookup other := by
  have hbeq : (other == name) = false := beq_eq_false_iff_ne.2 hne
  induction m with
  | nil => rw [alterIn, List.lookup_cons, hbeq]
  | cons kp m ih =>
      obtain ⟨k, p⟩ := kp
      rw [alterIn]
      split
      · rw [List.lookup_cons, hbeq]
      · split
        · next heq =>
            subst heq
            rw [List.lookup_cons, List.lookup_cons, hbeq]
        · rw [List.lookup_cons, List.lookup_cons, ih]

/-- A name before all others is not in the list. -/
theorem lookup_eq_none_of_lt (hlt : ∀ k ∈ m.map Prod.fst, name < k) : m.lookup name = none :=
  lookup_eq_none_of_not_mem fun hmem => String.lt_irrefl name (hlt name hmem)

theorem lookup_alterIn_self (hm : IsAscending (m.map Prod.fst)) :
    (alterIn name g m).lookup name = some (g ((m.lookup name).getD (.new name))) := by
  induction m with
  | nil => rw [alterIn, List.lookup_cons_self, List.lookup_nil, Option.getD_none]
  | cons kp m ih =>
      obtain ⟨k, p⟩ := kp
      obtain ⟨hfirst, hrest⟩ := List.pairwise_cons.1 hm
      rw [alterIn]
      split
      · next hlt =>
          have hnone : ((k, p) :: m).lookup name = none := by
            refine lookup_eq_none_of_lt (List.forall_mem_cons.2 ⟨hlt, fun k' hk' => ?_⟩)
            exact String.lt_trans hlt (hfirst k' hk')
          rw [List.lookup_cons_self, hnone, Option.getD_none]
      · split
        · next heq =>
            subst heq
            rw [List.lookup_cons_self, List.lookup_cons_self, Option.getD_some]
        · next hne =>
            have hbeq : (name == k) = false := beq_eq_false_iff_ne.2 hne
            rw [List.lookup_cons, List.lookup_cons, hbeq]
            exact ih hrest

theorem lookup_map_value (g : Entry → Entry) :
    (m.map fun (k, p) => (k, g p)).lookup name = (m.lookup name).map g := by
  induction m with
  | nil => rfl
  | cons kp m ih =>
      obtain ⟨k, p⟩ := kp
      rw [List.map_cons, List.lookup_cons, List.lookup_cons, ih]
      cases name == k <;> rfl

end

theorem isOrderly_alter (hr : r.IsOrderly) (hg : Entry.Turns file g h) (name : String) :
    (r.alter name g).IsOrderly := by
  by_cases hdefault : name = defaultPackage
  · rw [alter, if_pos hdefault]
    have hsingle := List.forall_mem_cons.1 hr.single
    exact ⟨(hg.name _).trans hr.default_name, hr.ascending, hr.no_default, hr.keyed,
      List.forall_mem_cons.2 ⟨hg.isSingle hsingle.1, hsingle.2⟩⟩
  · rw [alter, if_neg hdefault]
    have hsingle := List.forall_mem_cons.1 hr.single
    constructor
    case default_name => exact hr.default_name
    case ascending =>
      dsimp only
      rw [keys_alterIn]
      exact isAscending_insertName hr.ascending
    case no_default =>
      -- the name is another one, so that the default package gets no key
      dsimp only
      rw [keys_alterIn, mem_insertName]
      rintro (heq | hmem)
      · exact hdefault heq.symm
      · exact hr.no_default hmem
    case keyed =>
      intro kp hkp
      rcases mem_alterIn hkp with hkp | rfl | ⟨p, hp, rfl⟩
      · exact hr.keyed kp hkp
      · exact hg.name _
      · exact (hg.name p).trans (hr.keyed _ hp)
    case single =>
      refine List.forall_mem_cons.2 ⟨hsingle.1, fun p hp => ?_⟩
      obtain ⟨kp, hkp, rfl⟩ := List.mem_map.1 hp
      rcases mem_alterIn hkp with hkp | rfl | ⟨q, hq, rfl⟩
      · exact hsingle.2 _ (List.mem_map_of_mem hkp)
      · exact hg.isSingle (Entry.isSingle_new name)
      · exact hg.isSingle (hsingle.2 q (List.mem_map_of_mem hq))

/-! ## §5. The package of a name. -/

theorem entry_each (hg : ∀ name, g (.new name) = .new name) (name : String) :
    (r.each g).entry name = g (r.entry name) := by
  unfold entry get?
  split
  · rfl
  · rw [each, lookup_map_value]
    cases r.others.lookup name with
    | none => exact (hg name).symm
    | some p => rfl

theorem entry_alter_self (hr : r.IsOrderly) (name : String) :
    (r.alter name g).entry name = g (r.entry name) := by
  unfold entry get? alter
  by_cases hdefault : name = defaultPackage
  · simp only [if_pos hdefault, Option.getD_some]
  · simp only [if_neg hdefault]
    rw [lookup_alterIn_self hr.ascending, Option.getD_some]

theorem entry_alter_of_ne (hne : other ≠ name) (g : Entry → Entry) :
    (r.alter name g).entry other = r.entry other := by
  unfold entry get? alter
  by_cases hother : other = defaultPackage
  · have hname : ¬ name = defaultPackage := by
      rintro rfl
      exact hne hother
    rw [if_pos hother, if_pos hother, if_neg hname]
  · rw [if_neg hother, if_neg hother]
    by_cases hname : name = defaultPackage
    · rw [if_pos hname]
    · rw [if_neg hname]
      dsimp only
      rw [lookup_alterIn_of_ne hne]

theorem entry_default : r.entry defaultPackage = r.default := by
  rw [entry, get?, if_pos rfl, Option.getD_some]

section

variable (hr : r.IsOrderly)

include hr

theorem nodup_keys : (r.others.map Prod.fst).Nodup :=
  nodup_of_isAscending hr.ascending

theorem entry_eq_of_mem {kp : String × Entry} (hkp : kp ∈ r.others) : r.entry kp.1 = kp.2 := by
  have hne : ¬ kp.1 = defaultPackage := by
    intro heq
    exact hr.no_default (heq ▸ List.mem_map_of_mem hkp)
  rw [entry, get?, if_neg hne, (lookup_eq_some_iff_mem (nodup_keys hr)).2 hkp, Option.getD_some]

/-- The packages are those of the default name and of the keys, in order. -/
theorem packages_eq :
    r.packages = (defaultPackage :: r.others.map Prod.fst).map r.entry := by
  have hothers : r.others.map Prod.snd = r.others.map (r.entry ∘ Prod.fst) :=
    List.map_congr_left fun kp hkp => (entry_eq_of_mem hr hkp).symm
  rw [packages, List.map_cons, List.map_map, entry_default, hothers]

/-- The package of a name is one that is known, or has nothing on its pages. -/
theorem entry_cases (name : String) :
    (name ∈ defaultPackage :: r.others.map Prod.fst ∧ r.entry name ∈ r.packages
        ∧ (r.entry name).name = name)
      ∨ r.entry name = .new name := by
  unfold entry get?
  by_cases hdefault : name = defaultPackage
  · left
    rw [if_pos hdefault, hdefault]
    exact ⟨List.mem_cons_self, List.mem_cons_self, hr.default_name⟩
  · rw [if_neg hdefault]
    cases hlookup : r.others.lookup name with
    | none => exact .inr rfl
    | some p =>
        have hmem := (lookup_eq_some_iff_mem (nodup_keys hr)).1 hlookup
        left
        exact ⟨List.mem_cons_of_mem _ (List.mem_map_of_mem hmem),
          List.mem_cons_of_mem _ (List.mem_map_of_mem hmem), hr.keyed _ hmem⟩

theorem name_entry (name : String) : (r.entry name).name = name := by
  rcases entry_cases hr name with ⟨_, _, hname⟩ | hnew
  · exact hname
  · rw [hnew]
    rfl

theorem isSingle_entry (name : String) : (r.entry name).IsSingle := by
  rcases entry_cases hr name with ⟨_, hmem, _⟩ | hnew
  · exact hr.single _ hmem
  · rw [hnew]
    exact Entry.isSingle_new name

end

end Registry

/-! ## §6. An update, form by form. -/

/-- What the facts of a file say of a package. -/
def FileFacts.page (f : FileFacts) (name : String) : Page :=
  ⟨(f.declarations.lookup name).map Declaration.asSets, f.ranges.lookup name,
    nameSet (f.definedIn name)⟩

namespace Registry

/-- Whether a registry and the current package are where an update of `before` is
when the facts of the file are `f` so far. -/
structure Follows (file : FileId) (before : Registry) (s : Registry × String) (f : FileFacts) :
    Prop where
  orderly : s.1.IsOrderly
  single : (f.ranges.map Prod.fst).Nodup
  current : s.2 = f.current
  here : ∀ name, (s.1.entry name).page file = f.page name
  elsewhere : ∀ name other, other ≠ file →
    (s.1.entry name).page other = (before.entry name).page other

section

variable {before r : Registry} {g : Entry → Entry} {h : Page → Page} {file : FileId}
  {c c' : String} {f f' : FileFacts}

/-- The facts change for one package as its page does. -/
theorem follows_alter (hs : Follows file before (r, c) f) (hg : Entry.Turns file g h)
    (name : String) (hsingle : (f'.ranges.map Prod.fst).Nodup) (hcurrent : c' = f'.current)
    (hself : f'.page name = h (f.page name))
    (hother : ∀ other, other ≠ name → f'.page other = f.page other) :
    Follows file before (r.alter name g, c') f' := by
  refine ⟨isOrderly_alter hs.orderly hg name, hsingle, hcurrent, ?_, ?_⟩
  · intro other
    by_cases hne : other = name
    · subst hne
      rw [entry_alter_self hs.orderly, hg.page, hs.here, hself]
    · rw [entry_alter_of_ne hne, hother other hne]
      exact hs.here other
  · intro other file' hfile
    by_cases hne : other = name
    · subst hne
      rw [entry_alter_self hs.orderly, hg.elsewhere _ _ hfile]
      exact hs.elsewhere other file' hfile
    · rw [entry_alter_of_ne hne]
      exact hs.elsewhere other file' hfile

/-- The facts change for every package as its page does. -/
theorem follows_each (hs : Follows file before (r, c) f) (hg : Entry.Turns file g h)
    (hnew : ∀ name, g (.new name) = .new name) (hsingle : (f'.ranges.map Prod.fst).Nodup)
    (hcurrent : c' = f'.current) (hall : ∀ name, f'.page name = h (f.page name)) :
    Follows file before (r.each g, c') f' := by
  refine ⟨isOrderly_each hs.orderly hg, hsingle, hcurrent, ?_, ?_⟩
  · intro name
    rw [entry_each hnew, hg.page, hall, hs.here]
  · intro name file' hfile
    rw [entry_each hnew, hg.elsewhere _ _ hfile]
    exact hs.elsewhere name file' hfile

/-- **One form**: the registry follows the facts of the file. -/
theorem follows_replay {s : Registry × String} (hs : Follows file before s f) (form : Sexp) :
    Follows file before (replay file s form) (f.push form) := by
  obtain ⟨r, c⟩ := s
  cases form with
  | atom a => exact hs
  | list outline role elements =>
      cases role with
      | package name uses exports =>
          refine follows_alter hs (Entry.turns_declare file _) name hs.single hs.current ?_ ?_
          · simp only [FileFacts.page, FileFacts.push, lookup_rebind_self, Option.map_some]
            rfl
          · intro other hne
            simp only [FileFacts.page, FileFacts.push, lookup_rebind_of_ne hne]
            rfl
      | inPackage name =>
          let line := outline.start.line
          -- every range is cut first, and then the package gets its own
          let ranges := f.ranges.filterMap fun p => (p.2.cutAt line).map (p.1, ·)
          have hsingle : (ranges.map Prod.fst).Nodup :=
            hs.single.sublist (keys_filterMap_sublist (·.cutAt line) f.ranges)
          have hlookup : ∀ other, ranges.lookup other
              = (f.ranges.lookup other).bind (·.cutAt line) :=
            fun _ => lookup_filterMap_value (·.cutAt line) hs.single
          have hcut : Follows file before (r.each (.cut file line), c) { f with ranges } := by
            refine follows_each hs (Entry.turns_cut file line) (fun _ => rfl) hsingle hs.current ?_
            intro other
            simp only [FileFacts.page, hlookup]
            rfl
          refine follows_alter hcut (Entry.turns_own file line) name (nodup_rebind hsingle) rfl
            ?_ ?_
          · simp only [FileFacts.page, FileFacts.push, FileFacts.switchRanges, lookup_rebind_self]
            rfl
          · intro other hne
            simp only [FileFacts.page, FileFacts.push, FileFacts.switchRanges,
              lookup_rebind_of_ne hne]
            rfl
      | function name params isMacro =>
          -- a definition goes to the package that is current for both
          have hcurrent : c = f.current := hs.current
          refine follows_alter hs (Entry.turns_define file name) c hs.single hs.current ?_ ?_
          · simp only [FileFacts.page, FileFacts.push, FileFacts.definedIn, hcurrent,
              List.filter_cons, decide_true, if_true, List.map_cons]
            rfl
          · intro other hne
            have hskip : decide (f.current = other) = false := by
              rw [← hcurrent]
              exact decide_eq_false (Ne.symm hne)
            simp only [FileFacts.page, FileFacts.push, FileFacts.definedIn, List.filter_cons, hskip]
            rfl
      | _ => exact hs

/-- **An update** leaves the registry in order, writes the pages of its file anew
and leaves those of all other files as they are. -/
theorem follows_update (hr : r.IsOrderly) (file : FileId) (forms : List Sexp) :
    ∃ current, Follows file r (r.update file forms, current) (FileFacts.ofForms forms) := by
  have hbegin : Follows file r (r.each (.forget file), defaultPackage) .empty := by
    have hturns := Entry.turns_forget file
    refine ⟨isOrderly_each hr hturns, List.nodup_nil, rfl, ?_, ?_⟩
    · intro name
      rw [entry_each fun _ => rfl, hturns.page]
      rfl
    · intro name other hne
      rw [entry_each fun _ => rfl, hturns.elsewhere _ _ hne]
  -- the induction is on the forms that are left, from any state that follows
  have hfold : ∀ s f, Follows file r s f →
      Follows file r (forms.foldl (replay file) s) (forms.foldl FileFacts.push f) := by
    induction forms with
    | nil => exact fun _ _ h => h
    | cons form forms ih => exact fun s f h => ih _ _ (follows_replay h form)
  exact ⟨_, hfold _ _ hbegin⟩

end

theorem isOrderly_update {r : Registry} (hr : r.IsOrderly) (file : FileId)
    (forms : List Sexp) : (r.update file forms).IsOrderly :=
  (follows_update hr file forms).choose_spec.orderly

/-- The pages behind an update. -/
theorem page_update {r : Registry} (hr : r.IsOrderly) (file other : FileId)
    (forms : List Sexp) (name : String) :
    ((r.update file forms).entry name).page other =
      if other = file then (FileFacts.ofForms forms).page name else (r.entry name).page other := by
  obtain ⟨_, h⟩ := follows_update hr file forms
  by_cases hother : other = file
  · rw [if_pos hother, hother]
    exact h.here name
  · rw [if_neg hother]
    exact h.elsewhere name other hother

end Registry

end LispLink.Package
