/-
  LispLink.Proofs.Package.Ranges
  ────────────────────────────────
  **WHO OWNS A LINE.**

  A switch at line `l` takes every line from `l` on away from all packages and
  gives them to its own package, in place of whatever that package owned:

      owns m x  afterwards  ⇔  l ≤ x                  if the switch is to m
                               owns m x  and  x < l   otherwise

  Nothing else happens to ranges, so ownership behind any number of switches is
  this step over and over.
-/
import LispLink.Package.FileFacts

namespace LispLink.Package

/-! ## §1. Lists of pairs with single keys. -/

section

variable {α β : Type} {name other : String} {a : α} {pairs : List (String × α)}

theorem lookup_rebind_self : (rebind name a pairs).lookup name = some a := by
  rw [rebind, List.lookup_cons_self]

theorem lookup_filter_ne {κ : Type} [BEq κ] [LawfulBEq κ] [DecidableEq κ] {name other : κ}
    {pairs : List (κ × α)} (h : other ≠ name) :
    (pairs.filter (·.1 ≠ name)).lookup other = pairs.lookup other := by
  induction pairs with
  | nil => rfl
  | cons p ps ih =>
      obtain ⟨k, b⟩ := p
      rw [List.filter_cons]
      by_cases hk : k = name
      · -- the pair that is dropped is not the one that is looked for
        subst hk
        have hne : (other == k) = false := beq_eq_false_iff_ne.2 h
        rw [if_neg (by simp), ih, List.lookup_cons, hne]
      · rw [if_pos (by simpa using hk), List.lookup_cons, List.lookup_cons, ih]

theorem lookup_eq_none_of_not_mem {κ : Type} [BEq κ] [LawfulBEq κ] {k : κ}
    {pairs : List (κ × α)} (h : k ∉ pairs.map Prod.fst) : pairs.lookup k = none := by
  rw [List.lookup_eq_none_iff]
  intro p hp
  rw [bne_iff_ne]
  rintro rfl
  exact h (List.mem_map_of_mem hp)

theorem lookup_eq_some_iff_mem {κ : Type} [BEq κ] [LawfulBEq κ] {k : κ} {pairs : List (κ × α)}
    (h : (pairs.map Prod.fst).Nodup) : pairs.lookup k = some a ↔ (k, a) ∈ pairs := by
  constructor
  · intro hlookup
    obtain ⟨before, after, rfl, _⟩ := List.lookup_eq_some_iff.1 hlookup
    exact List.mem_append_right _ List.mem_cons_self
  · intro hmem
    obtain ⟨before, after, rfl⟩ := List.append_of_mem hmem
    refine List.lookup_eq_some_iff.2 ⟨before, after, rfl, fun p hp => ?_⟩
    rw [List.map_append, List.nodup_append] at h
    rw [bne_iff_ne]
    exact (h.2.2 _ (List.mem_map_of_mem hp) k (by simp)).symm

theorem lookup_rebind_of_ne (h : other ≠ name) :
    (rebind name a pairs).lookup other = pairs.lookup other := by
  have hne : (other == name) = false := beq_eq_false_iff_ne.2 h
  rw [rebind, List.lookup_cons, hne]
  exact lookup_filter_ne h

theorem nodup_rebind (h : (pairs.map Prod.fst).Nodup) :
    ((rebind name a pairs).map Prod.fst).Nodup := by
  rw [rebind, List.map_cons, List.nodup_cons]
  constructor
  · intro hmem
    obtain ⟨p, hp, hname⟩ := List.mem_map.1 hmem
    have hne := (List.mem_filter.1 hp).2
    simp [hname] at hne
  · exact h.sublist (List.filter_sublist.map Prod.fst)

/-- Changing or dropping the values leaves single keys single. -/
theorem keys_filterMap_sublist (g : α → Option β) (pairs : List (String × α)) :
    ((pairs.filterMap fun (k, b) => (g b).map (k, ·)).map Prod.fst).Sublist
      (pairs.map Prod.fst) := by
  induction pairs with
  | nil => exact List.Sublist.slnil
  | cons p ps ih =>
      obtain ⟨k, b⟩ := p
      rw [List.filterMap_cons]
      cases hg : g b with
      | none => simpa [hg] using ih.cons k
      | some c => simpa [hg] using ih

theorem lookup_filterMap_value (g : α → Option β) (h : (pairs.map Prod.fst).Nodup) :
    (pairs.filterMap fun (k, b) => (g b).map (k, ·)).lookup name
      = (pairs.lookup name).bind g := by
  induction pairs with
  | nil => rfl
  | cons p ps ih =>
      obtain ⟨k, b⟩ := p
      rw [List.map_cons, List.nodup_cons] at h
      have ih := ih h.2
      by_cases hk : name = k
      · subst hk
        cases hg : g b with
        | some c => simp [hg]
        | none =>
            -- no second pair with the key may show behind a dropped one
            have hnone : ps.lookup name = none := lookup_eq_none_of_not_mem h.1
            simp only [List.filterMap_cons, hg, Option.map_none, List.lookup_cons_self,
              Option.bind_some]
            rw [ih, hnone]
            rfl
      · have hne : (name == k) = false := beq_eq_false_iff_ne.2 hk
        cases hg : g b <;> simp [hg, List.lookup_cons, hne, ih]

end

/-! ## §2. Cutting a range. -/

namespace LineRange

theorem contains_iff {r : LineRange} {x : Nat} :
    r.contains x = true ↔ r.first ≤ x ∧ ∀ l, r.last = some l → x ≤ l := by
  unfold contains reaches
  cases h : r.last with
  | none => simp
  | some l => simp

theorem contains_openFrom {line x : Nat} : (openFrom line).contains x = true ↔ line ≤ x := by
  rw [contains_iff]
  simp [openFrom]

/-- What is left of a cut range are its lines before the cut. -/
theorem contains_cutAt {r : LineRange} {line x : Nat} :
    (r.cutAt line).any (·.contains x) = true ↔ r.contains x = true ∧ x < line := by
  obtain ⟨first, last⟩ := r
  unfold cutAt
  -- a range that starts at the cut or behind it goes, one that reaches it is cut
  -- back, and one that stops before stays
  cases last with
  | none =>
      simp only [reaches, Bool.not_true, Bool.false_eq_true, if_false]
      by_cases hle : line ≤ first
      · rw [if_pos hle]
        simp only [Option.any_none, Bool.false_eq_true, false_iff, contains_iff]
        omega
      · rw [if_neg hle]
        simp only [Option.any_some, contains_iff, Option.some.injEq, forall_eq', reduceCtorEq,
          false_implies, implies_true, and_true]
        omega
  | some l =>
      simp only [reaches]
      by_cases hl : line ≤ l
      · by_cases hle : line ≤ first
        · simp only [hl, hle, decide_true, Bool.not_true, Bool.false_eq_true, if_false, if_true,
            Option.any_none, false_iff, contains_iff, Option.some.injEq, forall_eq']
          omega
        · simp only [hl, hle, decide_true, Bool.not_true, Bool.false_eq_true, if_false,
            Option.any_some, contains_iff, Option.some.injEq, forall_eq']
          omega
      · simp only [hl, decide_false, Bool.not_false, if_true, Option.any_some, contains_iff,
          Option.some.injEq, forall_eq']
        omega

end LineRange

/-! ## §3. One switch. -/

/-- Whether a package owns a line. -/
def ownsIn (ranges : List (String × LineRange)) (name : String) (x : Nat) : Bool :=
  (ranges.lookup name).any (·.contains x)

namespace FileFacts

variable {ranges : List (String × LineRange)} {target name : String} {line x : Nat}

theorem nodup_switchRanges (h : (ranges.map Prod.fst).Nodup) :
    ((switchRanges line target ranges).map Prod.fst).Nodup :=
  nodup_rebind (h.sublist (keys_filterMap_sublist (·.cutAt line) ranges))

/-- The package of a switch owns the lines from there on, and none before. -/
theorem ownsIn_switchRanges_self :
    ownsIn (switchRanges line target ranges) target x = true ↔ line ≤ x := by
  rw [ownsIn, switchRanges, lookup_rebind_self]
  exact LineRange.contains_openFrom

/-- Any other package keeps the lines before the switch. -/
theorem ownsIn_switchRanges_of_ne (h : (ranges.map Prod.fst).Nodup) (hne : name ≠ target) :
    ownsIn (switchRanges line target ranges) name x = true
      ↔ ownsIn ranges name x = true ∧ x < line := by
  rw [ownsIn, switchRanges, lookup_rebind_of_ne hne,
    lookup_filterMap_value (g := (·.cutAt line)) h, ownsIn]
  cases ranges.lookup name with
  | none => simp
  | some r => exact LineRange.contains_cutAt

end FileFacts

end LispLink.Package
