/-
  LispLink.Proofs.Package.Resolution
  ────────────────────────────────
  **WHICH PACKAGE IS CURRENT ON A LINE.**

  What a reader of a file expects is the package of the last switch at or before
  the line (`currentAt`).  Since a package has a single range of lines in a file,
  a switch back to a package takes its earlier lines away, and those fall to the
  default package:

      resolve line  =  default        if a switch behind the line names
                                      the package that is current there
                       currentAt line otherwise
-/
import Mathlib.Data.List.Induction
import LispLink.Package.Table
import LispLink.Proofs.Package.Ranges
import LispLink.Proofs.Source.Forms

namespace LispLink.Package

open Source

/-! ## §1. The switches of a text. -/

/-- A switch of the package: the line of its open paren and the package that is
current from there on. -/
structure Switch where
  line : Nat
  package : String
  deriving DecidableEq, Repr

/-- The switch that a form makes, if it is code of the shape
`(in-package name …)`. -/
def switch? : Sexp → Option Switch
  | .list o _ (.atom a :: .atom b :: _) =>
    if a.kind = .inPackage ∧ o.taint.isData = false then
      some ⟨o.start.line, packageName b.text⟩
    else none
  | _ => none

/-- The switches that forms make, in order. -/
def switches (forms : List Sexp) : List Switch := forms.filterMap switch?

/-- The last of several switches that stands on or before a line. -/
def lastSwitch? (line : Nat) (ss : List Switch) : Option Switch :=
  ss.reverse.find? (·.line ≤ line)

/-- The package that is current on a line: that of the last switch there or
before, and the default one if there is none. -/
def currentAt (forms : List Sexp) (line : Nat) : String :=
  ((lastSwitch? line (switches forms)).map Switch.package).getD defaultPackage

/-! ## §2. Recognised switches. -/

/-- Only a switch is recognised as one. -/
theorem kind_of_ofHead_inPackage {a : Atom} {es : List Sexp} {name : String}
    (h : (Recognition.ofHead a es).role = .inPackage name) : a.kind = .inPackage := by
  unfold Recognition.ofHead at h
  split at h
  case h_7 hk => exact hk
  all_goals
    simp only [Recognition.function, Recognition.named, Recognition.package,
      Recognition.locals, Recognition.naming, Recognition.plain] at h
    try split at h
    all_goals exact nomatch h

/-- A list is recognised as a switch exactly if it is code, its head says so and
a name stands behind the head. -/
theorem role_eq_inPackage_iff {taint : Taint} {es : List Sexp} {name : String} :
    (Recognition.ofList taint es).role = .inPackage name ↔
      taint.isData = false ∧ ∃ a b rest, es = .atom a :: .atom b :: rest
        ∧ a.kind = .inPackage ∧ packageName b.text = name := by
  constructor
  · intro h
    unfold Recognition.ofList at h
    split at h
    · exact nomatch h
    · next hcode =>
        refine ⟨by simpa using hcode, ?_⟩
        -- first what the head must be, and then what stands behind it
        cases hhead : es.head?.bind Sexp.atom? with
        | none =>
            rw [hhead] at h
            exact nomatch h
        | some a =>
            rw [hhead] at h
            have hkind := kind_of_ofHead_inPackage h
            simp only [Recognition.ofHead, hkind, Recognition.inPackage] at h
            cases hname : es[1]?.bind Sexp.atom? with
            | none =>
                rw [hname] at h
                exact nomatch h
            | some b =>
                rw [hname] at h
                match es, hhead, hname with
                | .atom a' :: .atom b' :: rest, hhead, hname =>
                    cases hhead
                    cases hname
                    exact ⟨a, b, rest, rfl, hkind, Role.inPackage.inj h⟩
  · rintro ⟨hcode, a, b, rest, rfl, hkind, rfl⟩
    simp [Recognition.ofList, hcode, Sexp.atom?, Recognition.ofHead, hkind,
      Recognition.inPackage]

/-- A recognised list makes a switch exactly if that is its role. -/
theorem switch?_eq_some_iff {e : Sexp} (he : e.IsRecognized) {s : Switch} :
    switch? e = some s ↔ ∃ o es, e = .list o (.inPackage s.package) es
      ∧ o.start.line = s.line := by
  cases e with
  | atom a => simp [switch?]
  | list o role es =>
      have hrole : role = (Recognition.ofList o.taint es).role := he
      constructor
      · intro h
        unfold switch? at h
        split at h
        · next o' role' a b rest heq =>
            cases heq
            split at h
            · next hswitch =>
                have hin : role = .inPackage (packageName b.text) :=
                  hrole.trans (role_eq_inPackage_iff.2
                    ⟨hswitch.2, a, b, rest, rfl, hswitch.1, rfl⟩)
                generalize packageName b.text = name at h hin
                have hs := Option.some.inj h
                subst hs hin
                exact ⟨o, _, rfl, rfl⟩
            · cases h
        · cases h
      · rintro ⟨o', es', heq, hline⟩
        cases heq
        obtain ⟨hcode, a, b, rest, rfl, hkind, hname⟩ := role_eq_inPackage_iff.1 hrole.symm
        rw [switch?, if_pos ⟨hkind, hcode⟩, hline, hname]

theorem packageOf?_of_switch? {e : Sexp} (he : e.IsRecognized) {s : Switch}
    (h : switch? e = some s) : FileFacts.packageOf? e = some s.package := by
  obtain ⟨o, es, rfl, _⟩ := (switch?_eq_some_iff he).1 h
  rfl

/-! ## §3. The ranges behind switches. -/

/-- The ranges behind several switches. -/
def rangesOf (ss : List Switch) : List (String × LineRange) :=
  ss.foldl (fun ranges s => FileFacts.switchRanges s.line s.package ranges) []

/-- Only switches touch the ranges. -/
theorem ranges_push {f : FileFacts} {e : Sexp} (he : e.IsRecognized) :
    (f.push e).ranges = match switch? e with
      | some s => FileFacts.switchRanges s.line s.package f.ranges
      | none => f.ranges := by
  cases hs : switch? e with
  | some s =>
      obtain ⟨o, es, rfl, hline⟩ := (switch?_eq_some_iff he).1 hs
      simp only [FileFacts.push, hline]
  | none =>
      unfold FileFacts.push
      split
      · rfl
      · next o name es =>
          -- a list with the role of a switch makes one
          have hsome := (switch?_eq_some_iff (s := ⟨o.start.line, name⟩) he).2 ⟨o, es, rfl, rfl⟩
          rw [hs] at hsome
          cases hsome
      · rfl
      · rfl

theorem ranges_ofForms {forms : List Sexp} (h : ∀ e ∈ forms, e.IsRecognized) :
    (FileFacts.ofForms forms).ranges = rangesOf (switches forms) := by
  have hfold : ∀ f : FileFacts, (forms.foldl FileFacts.push f).ranges
      = (switches forms).foldl
          (fun ranges s => FileFacts.switchRanges s.line s.package ranges) f.ranges := by
    induction forms with
    | nil =>
        intro f
        rfl
    | cons e es ih =>
        intro f
        rw [List.foldl_cons, ih (fun e' he' => h e' (List.mem_cons_of_mem e he')),
          ranges_push (h e List.mem_cons_self)]
        unfold switches
        rw [List.filterMap_cons]
        cases switch? e <;> rfl
  exact hfold .empty

theorem rangesOf_concat (ss : List Switch) (s : Switch) :
    rangesOf (ss ++ [s]) = FileFacts.switchRanges s.line s.package (rangesOf ss) := by
  rw [rangesOf, List.foldl_append]
  rfl

theorem nodup_rangesOf (ss : List Switch) : ((rangesOf ss).map Prod.fst).Nodup := by
  induction ss using List.reverseRecOn with
  | nil => exact List.nodup_nil
  | append_singleton ss s ih =>
      rw [rangesOf_concat]
      exact FileFacts.nodup_switchRanges ih

/-- The switches behind the last one that stands on or before a line. -/
def behind (line : Nat) (ss : List Switch) : List Switch :=
  ss.reverse.takeWhile (line < ·.line)

/-- **A line is owned by the package of the last switch before it**, if that
package is not switched to again. -/
theorem ownsIn_rangesOf {ss : List Switch} {name : String} {x : Nat} :
    ownsIn (rangesOf ss) name x = true ↔
      ∃ s, lastSwitch? x ss = some s ∧ s.package = name
        ∧ ∀ s' ∈ behind x ss, s'.package ≠ name := by
  induction ss using List.reverseRecOn with
  | nil => simp [rangesOf, ownsIn, lastSwitch?]
  | append_singleton ss s ih =>
      have hrev : (ss ++ [s]).reverse = s :: ss.reverse := by simp
      rw [rangesOf_concat]
      by_cases hx : s.line ≤ x
      · -- the switch itself is the last one before the line
        have hlast : lastSwitch? x (ss ++ [s]) = some s := by
          rw [lastSwitch?, hrev, List.find?_cons_of_pos (by simpa using hx)]
        have hbehind : behind x (ss ++ [s]) = [] := by
          rw [behind, hrev, List.takeWhile_cons_of_neg (by simpa using hx)]
        rw [hlast, hbehind]
        by_cases hname : name = s.package
        · subst hname
          rw [FileFacts.ownsIn_switchRanges_self]
          simp [hx]
        · rw [FileFacts.ownsIn_switchRanges_of_ne (nodup_rangesOf ss) hname]
          have hx' : ¬ x < s.line := by omega
          simp [hx', Ne.symm hname]
      · -- the line keeps its last switch, and the new one is behind it
        have hlast : lastSwitch? x (ss ++ [s]) = lastSwitch? x ss := by
          rw [lastSwitch?, hrev, List.find?_cons_of_neg (by simpa using hx)]
          rfl
        have hbehind : behind x (ss ++ [s]) = s :: behind x ss := by
          rw [behind, hrev, List.takeWhile_cons_of_pos (by simpa using hx)]
          rfl
        rw [hlast, hbehind]
        by_cases hname : name = s.package
        · subst hname
          rw [FileFacts.ownsIn_switchRanges_self]
          simp [hx]
        · rw [FileFacts.ownsIn_switchRanges_of_ne (nodup_rangesOf ss) hname, ih]
          have hx' : x < s.line := by omega
          simp [hx', Ne.symm hname]

/-! ## §4. In the order of a text. -/

/-- The switches of a text stand on lines that never go back. -/
theorem switches_ascending (text : String) :
    (switches (parse text)).Pairwise fun s s' => s.line ≤ s'.line := by
  rw [switches, List.pairwise_filterMap]
  refine (parse_ascending text).imp_of_mem ?_
  intro e e' he he' hle s hs s' hs'
  obtain ⟨o, es, rfl, hline⟩ := (switch?_eq_some_iff (parse_recognized text e he)).1 hs
  obtain ⟨o', es', rfl, hline'⟩ := (switch?_eq_some_iff (parse_recognized text e' he')).1 hs'
  rw [← hline, ← hline']
  exact Position.line_le hle

/-- In that order the switches behind a line are those on later lines. -/
theorem mem_behind_iff {ss : List Switch} (h : ss.Pairwise fun s s' => s.line ≤ s'.line)
    {line : Nat} {s : Switch} : s ∈ behind line ss ↔ s ∈ ss ∧ line < s.line := by
  induction ss using List.reverseRecOn with
  | nil => simp [behind]
  | append_singleton ss s' ih =>
      have hsplit := List.pairwise_append.1 h
      have hrev : (ss ++ [s']).reverse = s' :: ss.reverse := by simp
      rw [behind, hrev]
      by_cases hline : line < s'.line
      · rw [List.takeWhile_cons_of_pos (by simpa using hline), List.mem_cons]
        have ih := ih hsplit.1
        rw [behind] at ih
        rw [ih, List.mem_append, List.mem_singleton]
        constructor
        · rintro (rfl | ⟨hs, hlt⟩)
          · exact ⟨.inr rfl, hline⟩
          · exact ⟨.inl hs, hlt⟩
        · rintro ⟨hs | rfl, hlt⟩
          · exact .inr ⟨hs, hlt⟩
          · exact .inl rfl
      · -- nothing stands behind a line that the last switch does not
        rw [List.takeWhile_cons_of_neg (by simpa using hline)]
        constructor
        · intro hs
          cases hs
        · rintro ⟨hs, hlt⟩
          have hle : s.line ≤ s'.line := by
            rcases List.mem_append.1 hs with hs | hs
            · exact hsplit.2.2 s hs s' (List.mem_singleton_self s')
            · obtain rfl := List.mem_singleton.1 hs
              exact Nat.le_refl _
          omega

/-! ## §5. What the table answers. -/

namespace Table

variable {t : Table} {file : FileId} {line : Nat}

/-- The table knows every package that the file switches to. -/
theorem mem_packages_update (t : Table) (file : FileId) {text : String} {s : Switch}
    (hs : s ∈ switches (parse text)) : s.package ∈ (t.update file (parse text)).packages := by
  obtain ⟨e, he, hswitch⟩ := List.mem_filterMap.1 hs
  have hname := packageOf?_of_switch? (parse_recognized text e he) hswitch
  unfold packages
  by_cases hdefault : s.package = defaultPackage
  · rw [hdefault]
    exact List.mem_cons_self
  · apply List.mem_cons_of_mem
    show s.package ∈ insertNames _ _
    rw [mem_insertNames]
    left
    rw [List.mem_filter]
    exact ⟨List.mem_filterMap.2 ⟨e, he, hname⟩, by simpa using hdefault⟩

/-- Owning a line of the file is a matter of its switches alone. -/
theorem range?_update (t : Table) (file : FileId) (text : String) (name : String) (line : Nat) :
    ((t.update file (parse text)).range? file name).any (·.contains line)
      = ownsIn (rangesOf (switches (parse text))) name line := by
  have hfacts : (t.update file (parse text)).facts file = FileFacts.ofForms (parse text) := by
    rw [facts, update, List.lookup_cons_self]
    rfl
  rw [range?, hfacts, FileFacts.range?, ranges_ofForms (parse_recognized text)]
  rfl

/-- The only owner of a line is the answer. -/
theorem resolve_of_owner {name : String} (hmem : name ∈ t.packages)
    (howns : ∀ other, (t.range? file other).any (·.contains line) = true ↔ other = name) :
    t.resolve file line = name := by
  have hin : name ∈ t.owners file line :=
    List.mem_filter.2 ⟨hmem, (howns name).2 rfl⟩
  obtain ⟨first, rest, hcons⟩ := List.exists_cons_of_ne_nil (List.ne_nil_of_mem hin)
  have hfirst : first ∈ t.owners file line := by
    rw [hcons]
    exact List.mem_cons_self
  rw [resolve, hcons]
  exact (howns first).1 (List.mem_filter.1 hfirst).2

/-- A line without an owner is in the default package. -/
theorem resolve_of_no_owner
    (howns : ∀ other, ¬ (t.range? file other).any (·.contains line) = true) :
    t.resolve file line = defaultPackage := by
  have hnil : t.owners file line = [] :=
    List.filter_eq_nil_iff.2 fun other _ => howns other
  rw [resolve, hnil]
  rfl

/-- **The answer for a line**: the package that is current there, unless a
switch further down names it once more; then it is the default package. -/
theorem resolve_update (t : Table) (file : FileId) (text : String) (line : Nat) :
    (t.update file (parse text)).resolve file line =
      if ∃ s ∈ switches (parse text),
          line < s.line ∧ s.package = currentAt (parse text) line then defaultPackage
      else currentAt (parse text) line := by
  have hbehind : ∀ {s}, s ∈ behind line (switches (parse text)) ↔
      s ∈ switches (parse text) ∧ line < s.line :=
    mem_behind_iff (switches_ascending text)
  cases hlast : lastSwitch? line (switches (parse text)) with
  | none =>
      -- the line is before all switches, and nobody owns it
      have hcurrent : currentAt (parse text) line = defaultPackage := by
        rw [currentAt, hlast]
        rfl
      rw [hcurrent, ite_self]
      apply resolve_of_no_owner
      intro other
      rw [range?_update, ownsIn_rangesOf, hlast]
      rintro ⟨s, hs, _⟩
      cases hs
  | some s =>
      have hcurrent : currentAt (parse text) line = s.package := by
        rw [currentAt, hlast]
        rfl
      rw [hcurrent]
      by_cases hagain : ∃ s' ∈ switches (parse text), line < s'.line ∧ s'.package = s.package
      · -- the range of the package has moved behind the line
        rw [if_pos hagain]
        obtain ⟨s', hs', hlt, hname⟩ := hagain
        apply resolve_of_no_owner
        intro other
        rw [range?_update, ownsIn_rangesOf, hlast]
        rintro ⟨_, ⟨⟩, rfl, hnone⟩
        exact hnone s' (hbehind.2 ⟨hs', hlt⟩) hname
      · -- the package still owns the line, and it is the only one
        rw [if_neg hagain]
        have hmem : s ∈ switches (parse text) :=
          List.mem_reverse.1 (List.mem_of_find?_eq_some hlast)
        apply resolve_of_owner (mem_packages_update t file hmem)
        intro other
        rw [range?_update, ownsIn_rangesOf, hlast]
        constructor
        · rintro ⟨_, ⟨⟩, rfl, _⟩
          rfl
        · rintro rfl
          refine ⟨s, rfl, rfl, ?_⟩
          intro s' hs' hname
          exact hagain ⟨s', (hbehind.1 hs').1, (hbehind.1 hs').2, hname⟩

/-- **When the answer is the current package**: exactly if that is the default
one, or no switch behind the line names it again. -/
theorem resolve_eq_currentAt_iff (t : Table) (file : FileId) (text : String) (line : Nat) :
    (t.update file (parse text)).resolve file line = currentAt (parse text) line ↔
      currentAt (parse text) line = defaultPackage
        ∨ ∀ s ∈ switches (parse text), line < s.line →
            s.package ≠ currentAt (parse text) line := by
  rw [resolve_update]
  by_cases hagain : ∃ s ∈ switches (parse text),
      line < s.line ∧ s.package = currentAt (parse text) line
  · rw [if_pos hagain]
    obtain ⟨s, hs, hlt, hname⟩ := hagain
    constructor
    · intro h
      exact .inl h.symm
    · rintro (h | h)
      · exact h.symm
      · exact absurd hname (h s hs hlt)
  · rw [if_neg hagain]
    refine ⟨fun _ => .inr ?_, fun _ => rfl⟩
    intro s hs hlt hname
    exact hagain ⟨s, hs, hlt, hname⟩

/-- Switching to `a`, to `b` and back: the first line is in `A`, and the answer
is the default package. -/
theorem resolve_return :
    let text := "(in-package :a)\n(in-package :b)\n(in-package :a)\n"
    currentAt (parse text) 0 = "A"
      ∧ (empty.update ⟨"file:///a.lisp"⟩ (parse text)).resolve ⟨"file:///a.lisp"⟩ 0
          = "CL-USER" := by
  decide +kernel

end Table

end LispLink.Package
