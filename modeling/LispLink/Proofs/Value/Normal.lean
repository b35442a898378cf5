/-
  LispLink.Proofs.Value.Normal
  ────────────────────────────────
  **WHAT HAS BEEN READ ONCE STAYS THE SAME.**

  What a value reads back as survives being written itself: its names are as safe,
  it is nested no deeper, and it reads back as itself.  So values can be passed on
  as they were read; a message with them reads back with the same values:

      normal (normal v)  =  normal v
-/
import LispLink.Proofs.Value.RoundTrip

namespace LispLink.Value

open Source

/-! ## §1. Normal forms. -/

theorem normals_eq_map (vs : List Value) : normals vs = vs.map normal := by
  induction vs with
  | nil => rw [normals, List.map_nil]
  | cons v vs ih => rw [normals, List.map_cons, ih]

/-- A list with elements reads back as the list of what they read back as. -/
theorem normal_list_of_ne_nil {vs : List Value} (h : vs ≠ []) :
    (list vs).normal = list (vs.map normal) := by
  obtain ⟨v, vs, rfl⟩ := List.exists_cons_of_ne_nil h
  rw [normal, normals_eq_map, List.map_cons]

/-- **A normal form is its own normal form.** -/
theorem normal_normal (v : Value) : v.normal.normal = v.normal := by
  induction v using written_induction with
  | atom v h => rw [normal_atom h, normal_atom h]
  | record fs ih =>
      rw [normal_record]
      exact ih
  | list vs ih =>
      by_cases hvs : vs = []
      · subst hvs
        simp only [normal]
      · have hmap : vs.map normal ≠ [] := fun h => hvs (List.map_eq_nil_iff.1 h)
        rw [normal_list_of_ne_nil hvs, normal_list_of_ne_nil hmap, List.map_map]
        exact congrArg list (List.map_congr_left ih)

theorem isWireSafe_normal {v : Value} (h : v.isWireSafe = true) :
    v.normal.isWireSafe = true := by
  induction v using written_induction with
  | atom v hatom => rwa [normal_atom hatom]
  | record fs ih =>
      rw [normal_record]
      exact ih (by rwa [← isWireSafe_record])
  | list vs ih =>
      by_cases hvs : vs = []
      · rw [hvs, normal, isWireSafe]
      · rw [isWireSafe, areWireSafe_iff] at h
        rw [normal_list_of_ne_nil hvs, isWireSafe, areWireSafe_iff, List.forall_mem_map]
        exact fun v hv => ih v hv (h v hv)

theorem depth_normal_le (v : Value) : v.normal.depth ≤ v.depth := by
  induction v using written_induction with
  | atom v h => exact Nat.le_of_eq (by rw [normal_atom h])
  | record fs ih =>
      rw [normal_record, depth_record]
      exact ih
  | list vs ih =>
      by_cases hvs : vs = []
      · rw [hvs, normal, depth]
        exact Nat.zero_le _
      · rw [normal_list_of_ne_nil hvs, depth, depth]
        refine Nat.succ_le_succ (depths_le.2 ?_)
        rw [List.forall_mem_map]
        exact fun v hv =>
          Nat.le_trans (ih v hv) (depths_le.1 (Nat.le_refl (depths vs)) v hv)

/-! ## §2. Messages. -/

/-- A text whose tokens are read as one expression holds nothing else. -/
theorem parse_of_readsAs {text : String} {v : Value}
    (h : ReadsAs .begin ((tokenize text).map Token.piece) v) :
    ∃ e, parse text = [e] ∧ ofSexp e = v := by
  obtain ⟨e, ⟨hforms, hstack, hflat, _⟩, he⟩ := h _ rfl
  have hnone : (Reading.begin.pushAll (tokenize text)).flat = none := hflat
  have hnil : (Reading.begin.pushAll (tokenize text)).stack = [] := hstack
  refine ⟨e, ?_, he⟩
  show (((Reading.begin.pushAll (tokenize text)).closeAll _).forms).reverse = [e]
  rw [Reading.closeAll, hnone]
  simp only [hnil, List.foldl_nil]
  rw [hforms]
  rfl

/-- **A message reads back with what its values read back as**, if they survive
being written and leave a level for the message. -/
theorem parse_message {kind : String} {vs : List Value} (hkind : IsName kind)
    (hsafe : ∀ v ∈ vs, v.isWireSafe = true) (hdepth : ∀ v ∈ vs, v.depth ≤ maxDepth) :
    ∃ e, parse (list (keyword kind :: vs)).encode = [e]
      ∧ ofSexp e = list (keyword kind :: vs.map normal) := by
  have hsafe' : (list (keyword kind :: vs)).isWireSafe = true :=
    areWireSafe_iff.2 (List.forall_mem_cons.2 ⟨decide_eq_true hkind, hsafe⟩)
  have hlevels : (list (keyword kind :: vs)).depth ≤ maxDepth + 1 :=
    Nat.succ_le_succ (depths_le.2 (List.forall_mem_cons.2 ⟨Nat.zero_le _, hdepth⟩))
  have hnormal : (list (keyword kind :: vs)).normal = list (keyword kind :: vs.map normal) :=
    normal_list_of_ne_nil (List.cons_ne_nil _ _)
  have hreads := readsAs_pieces (list (keyword kind :: vs)) .begin hsafe' rfl
    (by rw [show Reading.begin.stack.length = 0 from rfl]; omega)
  rw [hnormal] at hreads
  refine parse_of_readsAs ?_
  rwa [tokenize_encode hsafe']

/-- A payload that holds one form is read as what the form stands for. -/
theorem ofText?_of_parse {payload : String} {e : Sexp} (h : parse payload = [e]) :
    ofText? payload = some (ofSexp e) := by
  rw [ofText?, h]
  rfl

end LispLink.Value
