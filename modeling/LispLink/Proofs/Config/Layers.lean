/-
  LispLink.Proofs.Config.Layers
  ────────────────────────────────
  **EACH FIELD FINDS ITS OWN LAYER.**

  A configuration is loaded as a whole or not at all, and that is decided by the file
  alone.  If it is loaded, then each field on its own is what the uppermost layer says
  that speaks of it:

      the environment   │   a variable with a text for it; a number has to be one
      the file          │   a member with its name, or the item in its place
      the defaults      │   which speak of all

  The five fields differ in their types, their names and their places, and in nothing
  else.  So there is one statement for all of them (`Field`), and one proof.
-/
import LispLink.Config
import LispLink.Proofs.Json.Grammar
import LispLink.Proofs.Wire.Replies

namespace LispLink

open JsonText

/-! ## §1. The fields. -/

/-- The fields of a configuration, in their order. -/
inductive Field where
  | host
  | port
  | timeoutSecs
  | defaultPackage
  | connectAttempts
  deriving DecidableEq

namespace Field

/-- What a field holds. -/
def Value : Field → Type
  | host | defaultPackage => String
  | port => UInt16
  | timeoutSecs => UInt64
  | connectAttempts => UInt32

/-- Its name in an object. -/
def name : Field → String
  | host => "host"
  | port => "port"
  | timeoutSecs => "timeout_secs"
  | defaultPackage => "default_package"
  | connectAttempts => "connect_attempts"

/-- Its place in an array. -/
def place : Field → Nat
  | host => 0
  | port => 1
  | timeoutSecs => 2
  | defaultPackage => 3
  | connectAttempts => 4

/-- The variable that speaks of it. -/
def variableName? : Field → Option String
  | host => some "SWANK_HOST"
  | port => some "SWANK_PORT"
  | timeoutSecs => some "SWANK_TIMEOUT_SECS"
  | defaultPackage => some "SWANK_PACKAGE"
  | connectAttempts => none

/-- What it is if nobody speaks of it. -/
def default : (f : Field) → f.Value
  | host => ("127.0.0.1" : String)
  | port => (4005 : UInt16)
  | timeoutSecs => (30 : UInt64)
  | defaultPackage => ("CL-USER" : String)
  | connectAttempts => (1 : UInt32)

end Field

/-- A field of a configuration. -/
def Config.get (c : Config) : (f : Field) → f.Value
  | .host => c.host
  | .port => c.port
  | .timeoutSecs => c.timeoutSecs
  | .defaultPackage => c.defaultPackage
  | .connectAttempts => c.connectAttempts

/-- What a layer says about a field. -/
def ConfigLayer.get (l : ConfigLayer) : (f : Field) → Option f.Value
  | .host => l.host
  | .port => l.port
  | .timeoutSecs => l.timeoutSecs
  | .defaultPackage => l.defaultPackage
  | .connectAttempts => l.connectAttempts

/-! ## §2. What the layers say. -/

/-- Whether a text is that number in plain decimal digits, perhaps behind a plus. -/
inductive IsPlainNumeral : List Char → Nat → Prop where
  | digits {ds : List Char} (h : AreDigits ds) : IsPlainNumeral ds (Nat.ofDigitChars 10 ds 0)
  | plus {ds : List Char} (h : AreDigits ds) :
      IsPlainNumeral ('+' :: ds) (Nat.ofDigitChars 10 ds 0)

namespace Field

/-- Whether the text of a variable is a value for a field.  A number that is out of
range is none. -/
def IsWritten : (f : Field) → String → f.Value → Prop
  | host, t, (v : String) | defaultPackage, t, (v : String) => t = v
  | port, t, (v : UInt16) => IsPlainNumeral t.toList v.toNat
  | timeoutSecs, t, (v : UInt64) => IsPlainNumeral t.toList v.toNat
  | connectAttempts, _, _ => False

/-- Whether the environment has a value for a field. -/
def IsOverridden (f : Field) (env : String → Option String) (v : f.Value) : Prop :=
  ∃ x t, f.variableName? = some x ∧ env x = some t ∧ f.IsWritten t v

/-- Whether a number in a file is that one: it is written with digits alone. -/
def IsDecimal (j : JsonText) (n : Nat) : Prop :=
  ∃ ds, j = .number ds ∧ AreDigits ds ∧ Nat.ofDigitChars 10 ds 0 = n

/-- Whether a string in a file is that text. -/
def IsText (j : JsonText) (s : String) : Prop := ∃ body, j = .string body ∧ Denotes body s.toList

/-- Whether a value in a file is one for a field. -/
def IsSpelled : (f : Field) → JsonText → f.Value → Prop
  | host, j, (v : String) | defaultPackage, j, (v : String) => IsText j v
  | port, j, (v : UInt16) => IsDecimal j v.toNat
  | timeoutSecs, j, (v : UInt64) => IsDecimal j v.toNat
  | connectAttempts, j, (v : UInt32) => IsDecimal j v.toNat

end Field

/-- Where a file speaks of a field. -/
inductive SpeaksOf : JsonText → Field → JsonText → Prop where
  | member {ms : List (List Char × JsonText)} {f : Field} {key : List Char} {j : JsonText}
      (h : (key, j) ∈ ms) (hkey : Denotes key f.name.toList) : SpeaksOf (.object ms) f j
  | item {js : List JsonText} {f : Field} {j : JsonText} (h : js[f.place]? = some j) :
      SpeaksOf (.array js) f j

/-- Whether a file that is JSON may speak of fields: it is an object with the name of
no field twice, or an array with nothing behind the last field. -/
inductive IsRecord : JsonText → Prop where
  | object {ms : List (List Char × JsonText)} (hkeys : ∀ m ∈ ms, ∃ key, Denotes m.1 key)
      (honce : ∀ f : Field, ms.Pairwise fun m m' =>
        ¬ (Denotes m.1 f.name.toList ∧ Denotes m'.1 f.name.toList)) :
      IsRecord (.object ms)
  | array {js : List JsonText} (hlength : js.length ≤ 5) : IsRecord (.array js)

/-- Whether a file that is JSON has the shape of a configuration: where it speaks of a
field, there is a value for it. -/
structure HasShape (j : JsonText) : Prop where
  isRecord : IsRecord j
  values : ∀ f i, SpeaksOf j f i → ∃ v, f.IsSpelled i v

/-- Whether a file has a value for a field. -/
def IsFiled (j : JsonText) (f : Field) (v : f.Value) : Prop :=
  ∃ i, SpeaksOf j f i ∧ f.IsSpelled i v

/-- **What a field is**, if `upper` and `lower` tell what two layers say of it: what the
upper one says, else what the lower one says, else the default. -/
inductive Layered {α : Type} (upper lower : α → Prop) (default : α) : α → Prop where
  | upper {v : α} (h : upper v) : Layered upper lower default v
  | lower {v : α} (hupper : ∀ u, ¬ upper u) (h : lower v) : Layered upper lower default v
  | default (hupper : ∀ u, ¬ upper u) (hlower : ∀ u, ¬ lower u) :
      Layered upper lower default default

/-! ## §3. Layers one by one. -/

/-- Layers that say at most one thing are looked through from above. -/
theorem layered_iff {α : Type} {upper lower : α → Prop} {default : α} {u l : Option α}
    (hu : ∀ v, u = some v ↔ upper v) (hl : ∀ v, l = some v ↔ lower v) (v : α) :
    Layered upper lower default v ↔ v = u.getD (l.getD default) := by
  cases u with
  | some w =>
      constructor
      · intro h
        cases h with
        | upper h => exact (Option.some.inj ((hu v).2 h)).symm
        | lower hno | default hno => exact absurd ((hu w).1 rfl) (hno w)
      · intro hv
        rw [hv]
        exact .upper ((hu w).1 rfl)
  | none =>
      have hnone : ∀ w, ¬ upper w := fun w hw => nomatch (hu w).2 hw
      cases l with
      | some w =>
          constructor
          · intro h
            cases h with
            | upper h => exact absurd h (hnone _)
            | lower _ h => exact (Option.some.inj ((hl v).2 h)).symm
            | default _ hno => exact absurd ((hl w).1 rfl) (hno w)
          · intro hv
            rw [hv]
            exact .lower hnone ((hl w).1 rfl)
      | none =>
          constructor
          · intro h
            cases h with
            | upper h => exact absurd h (hnone _)
            | lower _ h => cases (hl v).2 h
            | default => rfl
          · intro hv
            rw [hv]
            exact .default hnone fun w hw => nomatch (hl w).2 hw

theorem Config.get_overlay (c : Config) (l : ConfigLayer) (f : Field) :
    (c.overlay l).get f = (l.get f).getD (c.get f) := by
  cases f <;> rfl

theorem Config.get_defaults (f : Field) : defaults.get f = f.default := by
  cases f <;> rfl

theorem Config.ext_get {c c' : Config} (h : ∀ f, c.get f = c'.get f) : c = c' := by
  obtain ⟨host, port, timeoutSecs, defaultPackage, connectAttempts⟩ := c
  obtain rfl : host = c'.host := h .host
  obtain rfl : port = c'.port := h .port
  obtain rfl : timeoutSecs = c'.timeoutSecs := h .timeoutSecs
  obtain rfl : defaultPackage = c'.defaultPackage := h .defaultPackage
  obtain rfl : connectAttempts = c'.connectAttempts := h .connectAttempts
  rfl

/-! ## §4. Numbers. -/

/-- What makes numbers below `size` words. -/
structure AreWords {α : Type} (size : Nat) (ofNat : Nat → α) (toNat : α → Nat) : Prop where
  toNat_lt : ∀ v, toNat v < size
  toNat_ofNat : ∀ n < size, toNat (ofNat n) = n
  ofNat_toNat : ∀ v, ofNat (toNat v) = v

theorem areWords16 : AreWords UInt16.size UInt16.ofNat UInt16.toNat :=
  ⟨UInt16.toNat_lt_size, fun _ => UInt16.toNat_ofNat_of_lt', fun _ => UInt16.ofNat_toNat⟩

theorem areWords32 : AreWords UInt32.size UInt32.ofNat UInt32.toNat :=
  ⟨UInt32.toNat_lt_size, fun _ => UInt32.toNat_ofNat_of_lt', fun _ => UInt32.ofNat_toNat⟩

theorem areWords64 : AreWords UInt64.size UInt64.ofNat UInt64.toNat :=
  ⟨UInt64.toNat_lt_size, fun _ => UInt64.toNat_ofNat_of_lt', fun _ => UInt64.ofNat_toNat⟩

/-- A number that is read below the size of words is a word, and the same one. -/
theorem AreWords.map_eq_some_iff {α : Type} {size : Nat} {ofNat : Nat → α} {toNat : α → Nat}
    (h : AreWords size ofNat toNat) {o : Option Nat} {P : Nat → Prop}
    (ho : ∀ n, o = some n ↔ P n ∧ n < size) (v : α) : o.map ofNat = some v ↔ P (toNat v) := by
  rw [Option.map_eq_some_iff]
  constructor
  · rintro ⟨n, hn, rfl⟩
    obtain ⟨hP, hlt⟩ := (ho n).1 hn
    rw [h.toNat_ofNat n hlt]
    exact hP
  · exact fun hP => ⟨toNat v, (ho _).2 ⟨hP, h.toNat_lt v⟩, h.ofNat_toNat v⟩

theorem natOfDigits?_eq_some_iff {cs : List Char} {n : Nat} :
    Number.natOfDigits? cs = some n ↔ AreDigits cs ∧ Nat.ofDigitChars 10 cs 0 = n := by
  constructor
  · intro h
    obtain ⟨hne, hdigits, hn⟩ := Wire.natOfDigits?_eq_some h
    exact ⟨⟨hne, hdigits⟩, hn.symm⟩
  · rintro ⟨⟨hne, hdigits⟩, rfl⟩
    have hcs : (!cs.isEmpty && cs.all Char.isDigit) = true := by
      simpa [hne] using hdigits
    rw [Number.natOfDigits?, if_pos hcs, Number.natOfDigits_eq]

/-- The numbers of the environment. -/
theorem natBelow?_eq_some_iff {bound n : Nat} {text : String} :
    Number.natBelow? bound text = some n ↔ IsPlainNumeral text.toList n ∧ n < bound := by
  unfold Number.natBelow?
  rw [Option.filter_eq_some_iff, decide_eq_true_iff, and_congr_left_iff]
  intro _
  split
  · next cs heq =>
      rw [natOfDigits?_eq_some_iff, heq]
      constructor
      · rintro ⟨h, rfl⟩
        exact .plus h
      · intro h
        cases h with
        | plus h => exact ⟨h, rfl⟩
        | digits h => cases h.digits _ List.mem_cons_self
  · next hplus =>
      rw [natOfDigits?_eq_some_iff]
      constructor
      · rintro ⟨h, rfl⟩
        exact .digits h
      · intro h
        generalize text.toList = cs at *
        cases h with
        | plus h => exact absurd rfl (hplus _)
        | digits h => exact ⟨h, rfl⟩

/-- The numbers of a file. -/
theorem jsonNatBelow?_eq_some_iff {bound n : Nat} {j : JsonText} (hj : j.IsSpelled) :
    j.natBelow? bound = some n ↔ Field.IsDecimal j n ∧ n < bound := by
  cases j with
  | number ds =>
      have hne : ds ≠ [] := by
        obtain ⟨c, cs, rfl, _⟩ := hj.isNumber.first
        exact List.cons_ne_nil c cs
      show (if ds.all Char.isDigit then (some (Number.natOfDigits ds)).filter (· < bound) else none)
        = some n ↔ _
      rw [Number.natOfDigits_eq]
      constructor
      · intro h
        obtain ⟨hdigits, h⟩ := Option.ite_none_right_eq_some.1 h
        obtain ⟨hn, hlt⟩ := Option.filter_eq_some_iff.1 h
        exact ⟨⟨ds, rfl, ⟨hne, List.all_eq_true.1 hdigits⟩, Option.some.inj hn⟩,
          of_decide_eq_true hlt⟩
      · rintro ⟨⟨ds', heq, hdigits, rfl⟩, hlt⟩
        cases heq
        rw [if_pos (List.all_eq_true.2 hdigits.digits)]
        exact Option.filter_eq_some_iff.2 ⟨rfl, decide_eq_true hlt⟩
  | _ =>
      constructor
      · exact nofun
      · rintro ⟨⟨_, heq, _⟩, _⟩
        cases heq

/-! ## §5. The environment. -/

theorem Field.isOverridden_iff {f : Field} {x : String} (hx : f.variableName? = some x)
    {env : String → Option String} {v : f.Value} :
    f.IsOverridden env v ↔ ∃ t, env x = some t ∧ f.IsWritten t v := by
  constructor
  · rintro ⟨x', t, hx', ht, hv⟩
    rw [hx] at hx'
    cases hx'
    exact ⟨t, ht, hv⟩
  · rintro ⟨t, ht, hv⟩
    exact ⟨x, t, hx, ht, hv⟩

theorem Field.not_isOverridden {f : Field} (hx : f.variableName? = none)
    (env : String → Option String) (v : f.Value) : ¬ f.IsOverridden env v := by
  rintro ⟨x, _, hx', _⟩
  rw [hx] at hx'
  cases hx'

/-- The layer of the environment says of each field what its own variable does. -/
theorem ofEnvironment_get (env : String → Option String) (f : Field) (v : f.Value) :
    (ConfigLayer.ofEnvironment env).get f = some v ↔ f.IsOverridden env v := by
  cases f with
  | host | defaultPackage =>
      rw [Field.isOverridden_iff rfl]
      constructor
      · exact fun h => ⟨v, h, rfl⟩
      · rintro ⟨t, ht, rfl⟩
        exact ht
  | port =>
      rw [Field.isOverridden_iff rfl]
      refine Option.bind_eq_some_iff.trans (exists_congr fun t => and_congr_right fun _ => ?_)
      exact areWords16.map_eq_some_iff (fun _ => natBelow?_eq_some_iff) v
  | timeoutSecs =>
      rw [Field.isOverridden_iff rfl]
      refine Option.bind_eq_some_iff.trans (exists_congr fun t => and_congr_right fun _ => ?_)
      exact areWords64.map_eq_some_iff (fun _ => natBelow?_eq_some_iff) v
  | connectAttempts => exact iff_of_false nofun (Field.not_isOverridden rfl env v)

/-! ## §6. The values of a file. -/

/-- Read a value in a file as one for a field. -/
def Field.read? : (f : Field) → JsonText → Option f.Value
  | host | defaultPackage => JsonText.text?
  | port => ConfigLayer.port?
  | timeoutSecs => ConfigLayer.seconds?
  | connectAttempts => ConfigLayer.attempts?

theorem text?_eq_some_iff {j : JsonText} (hj : j.IsSpelled) {s : String} :
    j.text? = some s ↔ Field.IsText j s := by
  cases j with
  | string body =>
      unfold JsonText.text?
      rw [Option.map_eq_some_iff]
      constructor
      · rintro ⟨cs, hcs, rfl⟩
        refine ⟨body, rfl, ?_⟩
        rw [String.toList_ofList]
        exact denotes_of_contents hj.isBody hcs
      · rintro ⟨body', heq, h⟩
        cases heq
        exact ⟨s.toList, contents_of_denotes h, String.ofList_toList⟩
  | _ =>
      constructor
      · exact nofun
      · rintro ⟨_, heq, _⟩
        cases heq

theorem read?_eq_some_iff {j : JsonText} (hj : j.IsSpelled) (f : Field) (v : f.Value) :
    f.read? j = some v ↔ f.IsSpelled j v := by
  cases f with
  | host | defaultPackage => exact text?_eq_some_iff hj
  | port => exact areWords16.map_eq_some_iff (fun _ => jsonNatBelow?_eq_some_iff hj) v
  | timeoutSecs => exact areWords64.map_eq_some_iff (fun _ => jsonNatBelow?_eq_some_iff hj) v
  | connectAttempts => exact areWords32.map_eq_some_iff (fun _ => jsonNatBelow?_eq_some_iff hj) v

theorem optional_eq_some_iff {α : Type} {read : JsonText → Option α} {o : Option JsonText}
    {o' : Option α} :
    ConfigLayer.optional read o = some o'
      ↔ (∀ j, o = some j → ∃ v, read j = some v)
        ∧ ∀ v, o' = some v ↔ ∃ j, o = some j ∧ read j = some v := by
  cases o with
  | none =>
      constructor
      · intro h
        cases h
        exact ⟨nofun, fun v => ⟨nofun, fun ⟨_, h, _⟩ => nomatch h⟩⟩
      · rintro ⟨_, h⟩
        cases o' with
        | none => rfl
        | some v => obtain ⟨_, ⟨⟩, _⟩ := (h v).1 rfl
  | some j =>
      constructor
      · intro h
        obtain ⟨w, hw, rfl⟩ := Option.map_eq_some_iff.1 h
        refine ⟨?_, fun v => ⟨?_, ?_⟩⟩
        · rintro _ ⟨⟩
          exact ⟨w, hw⟩
        · rintro ⟨⟩
          exact ⟨j, rfl, hw⟩
        · rintro ⟨_, ⟨⟩, hv⟩
          exact hw.symm.trans hv
      · rintro ⟨hread, h⟩
        obtain ⟨v, hv⟩ := hread j rfl
        rw [(h v).2 ⟨j, rfl, hv⟩, ConfigLayer.optional, hv]
        rfl

section

variable {given : Field → Option JsonText}

/-- The layer of five values that may be missing. -/
theorem ofFields?_eq_some_iff {l : ConfigLayer} :
    ConfigLayer.ofFields? (given .host) (given .port) (given .timeoutSecs)
        (given .defaultPackage) (given .connectAttempts) = some l
      ↔ ∀ f : Field, ConfigLayer.optional f.read? (given f) = some (l.get f) := by
  constructor
  · intro h
    obtain ⟨host, hhost, h⟩ := Option.bind_eq_some_iff.1 h
    obtain ⟨port, hport, h⟩ := Option.bind_eq_some_iff.1 h
    obtain ⟨timeoutSecs, htimeoutSecs, h⟩ := Option.bind_eq_some_iff.1 h
    obtain ⟨defaultPackage, hdefaultPackage, h⟩ := Option.bind_eq_some_iff.1 h
    obtain ⟨connectAttempts, hconnectAttempts, h⟩ := Option.bind_eq_some_iff.1 h
    cases h
    intro f
    cases f with
    | host => exact hhost
    | port => exact hport
    | timeoutSecs => exact htimeoutSecs
    | defaultPackage => exact hdefaultPackage
    | connectAttempts => exact hconnectAttempts
  · intro h
    have hhost : ConfigLayer.optional JsonText.text? (given .host) = some l.host := h .host
    have hport : ConfigLayer.optional ConfigLayer.port? (given .port) = some l.port := h .port
    have htimeoutSecs : ConfigLayer.optional ConfigLayer.seconds? (given .timeoutSecs)
        = some l.timeoutSecs := h .timeoutSecs
    have hdefaultPackage : ConfigLayer.optional JsonText.text? (given .defaultPackage)
        = some l.defaultPackage := h .defaultPackage
    have hconnectAttempts : ConfigLayer.optional ConfigLayer.attempts? (given .connectAttempts)
        = some l.connectAttempts := h .connectAttempts
    rw [ConfigLayer.ofFields?, hhost, hport, htimeoutSecs, hdefaultPackage, hconnectAttempts]
    rfl

/-- If all values that are there can be read, there is a layer of them. -/
theorem exists_ofFields? (h : ∀ f i, given f = some i → ∃ v, f.read? i = some v) :
    ∃ l, ConfigLayer.ofFields? (given .host) (given .port) (given .timeoutSecs)
      (given .defaultPackage) (given .connectAttempts) = some l := by
  have hfields : ∀ f, ∃ o, ConfigLayer.optional f.read? (given f) = some o := by
    intro f
    cases hf : given f with
    | none => exact ⟨none, rfl⟩
    | some i =>
        obtain ⟨v, hv⟩ := h f i hf
        exact ⟨some v, by rw [ConfigLayer.optional, hv]; rfl⟩
  choose o ho using hfields
  refine ⟨⟨o .host, o .port, o .timeoutSecs, o .defaultPackage, o .connectAttempts⟩, ?_⟩
  refine ofFields?_eq_some_iff.2 fun f => ?_
  cases f <;> exact ho _

end

/-! ## §7. The members of an object. -/

/-- A member with its name resolved. -/
def named (m : List Char × JsonText) : String × JsonText :=
  (String.ofList ((contents m.1).getD []), m.2)

theorem named_fst_eq_iff {m : List Char × JsonText} (hm : ∃ key, Denotes m.1 key) {s : String} :
    (named m).1 = s ↔ Denotes m.1 s.toList := by
  obtain ⟨key, hkey⟩ := hm
  constructor
  · rintro rfl
    rw [named, contents_of_denotes hkey, Option.getD_some, String.toList_ofList]
    exact hkey
  · intro h
    rw [named, contents_of_denotes h, Option.getD_some, String.ofList_toList]

theorem namedMembers?_cons (m : List Char × JsonText) (ms : List (List Char × JsonText)) :
    ConfigLayer.namedMembers? (m :: ms)
      = (contents m.1).bind fun key =>
        (ConfigLayer.namedMembers? ms).map ((String.ofList key, m.2) :: ·) := by
  obtain ⟨key, j⟩ := m
  rw [ConfigLayer.namedMembers?, List.mapM_cons]
  dsimp only
  cases contents key with
  | none => rfl
  | some cs => exact Option.map_eq_bind.symm

theorem namedMembers?_eq_some {ms : List (List Char × JsonText)}
    (hkeys : ∀ m ∈ ms, ∃ key, Denotes m.1 key) :
    ConfigLayer.namedMembers? ms = some (ms.map named) := by
  induction ms with
  | nil => rfl
  | cons m ms ih =>
      obtain ⟨key, hkey⟩ := hkeys m List.mem_cons_self
      rw [namedMembers?_cons, ih fun m' hm' => hkeys m' (List.mem_cons_of_mem m hm'),
        List.map_cons, named, contents_of_denotes hkey]
      rfl

theorem denotes_of_namedMembers? {ms : List (List Char × JsonText)}
    (hms : ∀ m ∈ ms, IsBody m.1) {ns : List (String × JsonText)}
    (h : ConfigLayer.namedMembers? ms = some ns) : ∀ m ∈ ms, ∃ key, Denotes m.1 key := by
  induction ms generalizing ns with
  | nil => exact nofun
  | cons m ms ih =>
      rw [namedMembers?_cons] at h
      obtain ⟨key, hkey, h⟩ := Option.bind_eq_some_iff.1 h
      obtain ⟨ns', hns', _⟩ := Option.map_eq_some_iff.1 h
      obtain ⟨hm, hms⟩ := List.forall_mem_cons.1 hms
      exact List.forall_mem_cons.2 ⟨⟨key, denotes_of_contents hm hkey⟩, ih hms hns'⟩

/-- Whether a name occurs once at most. -/
def IsOnce (name : String) (ns : List (String × JsonText)) : Prop :=
  ns.Pairwise fun n n' => ¬ (n.1 = name ∧ n'.1 = name)

theorem isOnce_iff {name : String} {ns : List (String × JsonText)} :
    IsOnce name ns ↔ (ns.filter (·.1 = name)).length ≤ 1 := by
  have hlength : ∀ l : List (String × JsonText),
      l.length ≤ 1 ↔ l.Pairwise fun _ _ => False := by
    intro l
    rcases l with _ | ⟨n, _ | ⟨n', l⟩⟩
    · exact iff_of_true (Nat.zero_le 1) .nil
    · exact iff_of_true (Nat.le_refl 1) (List.pairwise_singleton _ n)
    · exact iff_of_false (by simp) fun h => List.rel_of_pairwise_cons h List.mem_cons_self
  -- of what is filtered no two are left
  rw [hlength, List.pairwise_filter]
  simp only [IsOnce, not_and, decide_eq_true_iff, imp_false]

/-- A name that occurs once is found where it occurs. -/
theorem IsOnce.lookup_eq_some_iff {name : String} {ns : List (String × JsonText)} {j : JsonText}
    (h : IsOnce name ns) : ns.lookup name = some j ↔ (name, j) ∈ ns := by
  constructor
  · intro hj
    obtain ⟨before, behind, rfl, _⟩ := List.lookup_eq_some_iff.1 hj
    exact List.mem_append_right _ List.mem_cons_self
  · intro hj
    obtain ⟨before, behind, rfl⟩ := List.append_of_mem hj
    refine List.lookup_eq_some_iff.2 ⟨before, behind, rfl, fun n hn => bne_iff_ne.2 ?_⟩
    rintro rfl
    exact (List.pairwise_append.1 h).2.2 n hn _ List.mem_cons_self ⟨rfl, rfl⟩

section

variable {ms : List (List Char × JsonText)} (hkeys : ∀ m ∈ ms, ∃ key, Denotes m.1 key)
include hkeys

theorem isOnce_named_iff {name : String} :
    IsOnce name (ms.map named)
      ↔ ms.Pairwise fun m m' => ¬ (Denotes m.1 name.toList ∧ Denotes m'.1 name.toList) := by
  rw [IsOnce, List.pairwise_map]
  refine List.Pairwise.iff_of_mem fun hm hm' => ?_
  rw [named_fst_eq_iff (hkeys _ hm), named_fst_eq_iff (hkeys _ hm')]

theorem speaksOf_object_iff {f : Field} {j : JsonText} :
    SpeaksOf (.object ms) f j ↔ (f.name, j) ∈ ms.map named := by
  rw [List.mem_map]
  constructor
  · intro h
    cases h with
    | member h hkey =>
        exact ⟨_, h, Prod.ext ((named_fst_eq_iff (hkeys _ h)).2 hkey) rfl⟩
  · rintro ⟨m, hm, heq⟩
    obtain ⟨hname, rfl⟩ := Prod.ext_iff.1 heq
    exact .member hm ((named_fst_eq_iff (hkeys m hm)).1 hname)

end

theorem mem_fieldNames_iff {name : String} :
    name ∈ ConfigLayer.fieldNames ↔ ∃ f : Field, f.name = name := by
  constructor
  · intro h
    simp only [ConfigLayer.fieldNames, List.mem_cons, List.not_mem_nil, or_false] at h
    rcases h with rfl | rfl | rfl | rfl | rfl
    · exact ⟨.host, rfl⟩
    · exact ⟨.port, rfl⟩
    · exact ⟨.timeoutSecs, rfl⟩
    · exact ⟨.defaultPackage, rfl⟩
    · exact ⟨.connectAttempts, rfl⟩
  · rintro ⟨f, rfl⟩
    cases f <;> simp [ConfigLayer.fieldNames, Field.name]

/-- Whether names are repeated is asked for those of the fields. -/
theorem any_fieldNames_iff {ns : List (String × JsonText)} :
    ¬ (ConfigLayer.fieldNames.any fun name => 1 < (ns.filter (·.1 = name)).length) = true
      ↔ ∀ f : Field, IsOnce f.name ns := by
  rw [List.any_eq_true]
  constructor
  · intro h f
    refine isOnce_iff.2 (Nat.not_lt.1 fun hlt => h ⟨f.name, ?_, decide_eq_true hlt⟩)
    exact mem_fieldNames_iff.2 ⟨f, rfl⟩
  · rintro h ⟨name, hname, hlt⟩
    obtain ⟨f, rfl⟩ := mem_fieldNames_iff.1 hname
    exact absurd (of_decide_eq_true hlt) (Nat.not_lt.2 (isOnce_iff.1 (h f)))

/-! ## §8. The file. -/

/-- What is read as a layer is a record. -/
theorem isRecord_of_ofJson? {j : JsonText} (hj : j.IsSpelled) {l : ConfigLayer}
    (h : ConfigLayer.ofJson? j = some l) : IsRecord j := by
  cases j with
  | object ms =>
      obtain ⟨ns, hns, h⟩ := Option.bind_eq_some_iff.1 h
      have hkeys := denotes_of_namedMembers? (fun m hm => (hj.members m hm).1) hns
      cases (namedMembers?_eq_some hkeys).symm.trans hns
      obtain ⟨honce, _⟩ := Option.ite_none_left_eq_some.1 h
      exact .object hkeys fun f => (isOnce_named_iff hkeys).1 (any_fieldNames_iff.1 honce f)
  | array js => exact .array (Nat.not_lt.1 (Option.ite_none_left_eq_some.1 h).1)
  | _ => cases h

/-- A record gives each field what it says of it. -/
theorem IsRecord.exists_given {j : JsonText} (h : IsRecord j) :
    ∃ given : Field → Option JsonText, (∀ f i, SpeaksOf j f i ↔ given f = some i)
      ∧ ConfigLayer.ofJson? j
        = ConfigLayer.ofFields? (given .host) (given .port) (given .timeoutSecs)
          (given .defaultPackage) (given .connectAttempts) := by
  cases h with
  | @object ms hkeys honce =>
      -- a lookup finds the first of a name, which is the only one
      have honce' : ∀ f : Field, IsOnce f.name (ms.map named) :=
        fun f => (isOnce_named_iff hkeys).2 (honce f)
      refine ⟨fun f => (ms.map named).lookup f.name, fun f i => ?_, ?_⟩
      · rw [speaksOf_object_iff hkeys, (honce' f).lookup_eq_some_iff]
      · rw [ConfigLayer.ofJson?, namedMembers?_eq_some hkeys]
        exact if_neg (any_fieldNames_iff.2 honce')
  | @array js hlength =>
      refine ⟨fun f => js[f.place]?, fun f i => ⟨?_, .item⟩, if_neg (Nat.not_lt.2 hlength)⟩
      rintro ⟨⟩
      assumption

theorem SpeaksOf.isSpelled {j i : JsonText} {f : Field} (hj : j.IsSpelled) (h : SpeaksOf j f i) :
    i.IsSpelled := by
  cases h with
  | member h _ => exact (hj.members _ h).2
  | item h => exact hj.items i (List.mem_of_getElem? h)

/-- **What has the shape of a configuration is read, and nothing else.** -/
theorem ofJson?_eq_some_iff {j : JsonText} (hj : j.IsSpelled) {l : ConfigLayer} :
    ConfigLayer.ofJson? j = some l
      ↔ HasShape j ∧ ∀ f v, l.get f = some v ↔ IsFiled j f v := by
  have hread : ∀ f i, SpeaksOf j f i → ∀ v, f.read? i = some v ↔ f.IsSpelled i v :=
    fun f i hi v => read?_eq_some_iff (hi.isSpelled hj) f v
  -- either side says that the file is a record; then both go field by field
  constructor
  · intro h
    have hrecord := isRecord_of_ofJson? hj h
    obtain ⟨given, hgiven, heq⟩ := hrecord.exists_given
    have hfields := fun f => optional_eq_some_iff.1 (ofFields?_eq_some_iff.1 (heq.symm.trans h) f)
    refine ⟨⟨hrecord, fun f i hi => ?_⟩, fun f v => ?_⟩
    · obtain ⟨v, hv⟩ := (hfields f).1 i ((hgiven f i).1 hi)
      exact ⟨v, (hread f i hi v).1 hv⟩
    · rw [(hfields f).2 v]
      refine exists_congr fun i => ?_
      rw [← hgiven]
      exact and_congr_right fun hi => hread f i hi v
  · rintro ⟨⟨hrecord, hvalues⟩, hl⟩
    obtain ⟨given, hgiven, heq⟩ := hrecord.exists_given
    rw [heq]
    refine ofFields?_eq_some_iff.2 fun f => optional_eq_some_iff.2 ⟨fun i hi => ?_, fun v => ?_⟩
    · obtain ⟨v, hv⟩ := hvalues f i ((hgiven f i).2 hi)
      exact ⟨v, (hread f i ((hgiven f i).2 hi) v).2 hv⟩
    · rw [hl]
      refine exists_congr fun i => ?_
      rw [← hgiven]
      exact and_congr_right fun hi => (hread f i hi v).symm

theorem HasShape.exists_ofJson? {j : JsonText} (hj : j.IsSpelled) (h : HasShape j) :
    ∃ l, ConfigLayer.ofJson? j = some l := by
  obtain ⟨given, hgiven, heq⟩ := h.isRecord.exists_given
  rw [heq]
  refine exists_ofFields? fun f i hi => ?_
  have hi := (hgiven f i).2 hi
  obtain ⟨v, hv⟩ := h.values f i hi
  exact ⟨v, (read?_eq_some_iff (hi.isSpelled hj) f v).2 hv⟩

theorem bind_ofUtf8?_eq_some_iff {file : Option (List UInt8)} {text : String} :
    file.bind Text.ofUtf8? = some text ↔ file = some (Text.utf8 text) := by
  rw [Option.bind_eq_some_iff]
  constructor
  · rintro ⟨bytes, rfl, htext⟩
    rw [Text.ofUtf8?_eq_some_iff.1 htext]
  · exact fun h => ⟨_, h, Text.ofUtf8?_utf8 text⟩

theorem bind_ofJson?_eq_some_iff {text : String} {l : ConfigLayer} :
    (parse? text).bind ConfigLayer.ofJson? = some l
      ↔ ∃ j, IsJson text j ∧ HasShape j ∧ ∀ f v, l.get f = some v ↔ IsFiled j f v := by
  rw [Option.bind_eq_some_iff]
  refine exists_congr fun j => ?_
  rw [parse?_eq_some_iff]
  exact and_congr_right fun hj => ofJson?_eq_some_iff hj.isSpelled

theorem bind_ofJson?_eq_none_iff {text : String} :
    (parse? text).bind ConfigLayer.ofJson? = none ↔ ∀ j, IsJson text j → ¬ HasShape j := by
  rw [Option.bind_eq_none_iff]
  refine forall_congr' fun j => ?_
  rw [parse?_eq_some_iff]
  refine forall_congr' fun hj => ?_
  constructor
  · intro h hshape
    obtain ⟨l, hl⟩ := hshape.exists_ofJson? hj.isSpelled
    cases h.symm.trans hl
  · intro h
    refine Option.eq_none_iff_forall_ne_some.2 fun l hl => h ?_
    exact ((ofJson?_eq_some_iff hj.isSpelled).1 hl).1

/-! ## §9. The configuration. -/

namespace Config

/-- Whether every field of a configuration is what its layers make of it. -/
def IsLayered (env : String → Option String) (filed : (f : Field) → f.Value → Prop)
    (c : Config) : Prop :=
  ∀ f, Layered (f.IsOverridden env) (filed f) f.default (c.get f)

/-- **What becomes of a file that is asked for.** -/
inductive FileOutcome (env : String → Option String) (file : Option (List UInt8)) :
    Except ConfigError Config → Prop where
  | unreadable (h : ∀ text, file ≠ some (Text.utf8 text)) :
      FileOutcome env file (.error .unreadable)
  | invalid {text : String} (hfile : file = some (Text.utf8 text))
      (h : ∀ j, IsJson text j → ¬ HasShape j) : FileOutcome env file (.error .invalid)
  | loaded {text : String} {j : JsonText} {c : Config} (hfile : file = some (Text.utf8 text))
      (hj : IsJson text j) (hshape : HasShape j) (hc : IsLayered env (IsFiled j) c) :
      FileOutcome env file (.ok c)

theorem isLayered_iff {l : ConfigLayer} {filed : (f : Field) → f.Value → Prop}
    (hl : ∀ f v, l.get f = some v ↔ filed f v) (env : String → Option String) (c : Config) :
    IsLayered env filed c ↔ c = (defaults.overlay l).overlay (.ofEnvironment env) := by
  have hget : ∀ f, Layered (f.IsOverridden env) (filed f) f.default (c.get f)
      ↔ c.get f = ((defaults.overlay l).overlay (.ofEnvironment env)).get f := by
    intro f
    rw [layered_iff (ofEnvironment_get env f) (hl f), get_overlay, get_overlay, get_defaults]
  constructor
  · exact fun h => ext_get fun f => (hget f).1 (h f)
  · rintro rfl f
    exact (hget f).2 rfl

theorem isLayered_silent (env : String → Option String) :
    IsLayered env (fun _ _ => False) (defaults.overlay (.ofEnvironment env)) := by
  refine (isLayered_iff (l := .silent) (fun f v => ⟨fun h => ?_, False.elim⟩) env _).2 rfl
  cases f <;> cases h

section

variable {file : Option (List UInt8)} {text : String} (env : String → Option String)

theorem loadFrom_unreadable (h : ∀ text, file ≠ some (Text.utf8 text)) :
    loadFrom file env = .error .unreadable := by
  have hfile : file.bind Text.ofUtf8? = none :=
    Option.eq_none_iff_forall_ne_some.2 fun text => mt bind_ofUtf8?_eq_some_iff.1 (h text)
  rw [loadFrom, ofFile, ConfigLayer.ofFile, hfile]
  rfl

theorem loadFrom_invalid (h : ∀ j, IsJson text j → ¬ HasShape j) :
    loadFrom (some (Text.utf8 text)) env = .error .invalid := by
  rw [loadFrom, ofFile, ConfigLayer.ofFile, Option.bind_some, Text.ofUtf8?_utf8]
  dsimp only
  rw [bind_ofJson?_eq_none_iff.2 h]
  rfl

theorem loadFrom_ok {l : ConfigLayer} (h : (parse? text).bind ConfigLayer.ofJson? = some l) :
    loadFrom (some (Text.utf8 text)) env
      = .ok ((defaults.overlay l).overlay (.ofEnvironment env)) := by
  rw [loadFrom, ofFile, ConfigLayer.ofFile, Option.bind_some, Text.ofUtf8?_utf8]
  dsimp only
  rw [h]
  rfl

end

theorem loadFrom_eq_iff {env : String → Option String} {file : Option (List UInt8)}
    {r : Except ConfigError Config} : loadFrom file env = r ↔ FileOutcome env file r := by
  constructor
  · rintro rfl
    by_cases hfile : ∀ text, file ≠ some (Text.utf8 text)
    · rw [loadFrom_unreadable env hfile]
      exact .unreadable hfile
    · obtain ⟨text, hfile⟩ := not_forall_not.1 hfile
      subst hfile
      cases hlayer : (parse? text).bind ConfigLayer.ofJson? with
      | none =>
          have h := bind_ofJson?_eq_none_iff.1 hlayer
          rw [loadFrom_invalid env h]
          exact .invalid rfl h
      | some l =>
          obtain ⟨j, hj, hshape, hl⟩ := bind_ofJson?_eq_some_iff.1 hlayer
          rw [loadFrom_ok env hlayer]
          exact .loaded rfl hj hshape ((isLayered_iff hl env _).2 rfl)
  · intro h
    cases h with
    | unreadable h => exact loadFrom_unreadable env h
    | invalid hfile h => rw [hfile, loadFrom_invalid env h]
    | loaded hfile hj hshape hc =>
        -- the shape gives a layer, and the layers give one configuration
        obtain ⟨l, hl⟩ := hshape.exists_ofJson? hj.isSpelled
        obtain ⟨_, hget⟩ := (ofJson?_eq_some_iff hj.isSpelled).1 hl
        have hlayer := bind_ofJson?_eq_some_iff.2 ⟨_, hj, hshape, hget⟩
        rw [hfile, loadFrom_ok env hlayer, (isLayered_iff hget env _).1 hc]

/-- The environment is laid over what the file alone decides. -/
theorem exists_load_eq (userFile : Option (List UInt8)) :
    ∃ base : Except ConfigError Config,
      ∀ env, load userFile env = base.map (·.overlay (.ofEnvironment env)) := by
  cases userFile with
  | none => exact ⟨.ok defaults, fun _ => rfl⟩
  | some bytes => exact ⟨ofFile (some bytes), fun _ => rfl⟩

theorem ofEnvironment_get_congr {env env' : String → Option String} {f : Field}
    (h : ∀ v, f.IsOverridden env v ↔ f.IsOverridden env' v) :
    (ConfigLayer.ofEnvironment env).get f = (ConfigLayer.ofEnvironment env').get f := by
  refine Option.ext fun v => ?_
  rw [ofEnvironment_get, ofEnvironment_get, h]

/-- **Another environment changes the fields that it speaks of otherwise**, and no
others. -/
theorem exists_load_of_load {userFile : Option (List UInt8)} {env : String → Option String}
    {c : Config} (h : load userFile env = .ok c) (env' : String → Option String) :
    ∃ c', load userFile env' = .ok c'
      ∧ ∀ f, (∀ v, f.IsOverridden env v ↔ f.IsOverridden env' v) → c'.get f = c.get f := by
  -- the file decides whether there is a configuration, before any environment is looked at
  obtain ⟨base, hbase⟩ := exists_load_eq userFile
  rw [hbase] at h
  cases base with
  | error e => cases h
  | ok b =>
      cases h
      refine ⟨b.overlay (.ofEnvironment env'), hbase env', fun f hf => ?_⟩
      rw [get_overlay, get_overlay, ofEnvironment_get_congr hf]

/-- **Each field finds its own layer.**  A file that is asked for is loaded or not by
what is in it, and the fields of what is loaded are looked through one by one.  The
user's own file is such a file, and may be missing.  An environment that speaks of a
field as another one does leaves it as it is, whatever it says otherwise; of the number
of attempts none speaks. -/
theorem each_field_finds_its_layer (env : String → Option String) :
    (∀ file r, loadFrom file env = r ↔ FileOutcome env file r)
      ∧ (∀ bytes, load (some bytes) env = loadFrom (some bytes) env)
      ∧ (∃ c, load none env = .ok c ∧ IsLayered env (fun _ _ => False) c)
      ∧ ∀ env' userFile c, load userFile env = .ok c →
        ∃ c', load userFile env' = .ok c' ∧ c'.connectAttempts = c.connectAttempts
          ∧ ∀ f, (∀ v, f.IsOverridden env v ↔ f.IsOverridden env' v) → c'.get f = c.get f := by
  refine ⟨fun file r => loadFrom_eq_iff, fun bytes => rfl, ⟨_, rfl, isLayered_silent env⟩, ?_⟩
  intro env' userFile c hc
  obtain ⟨c', hc', hfields⟩ := exists_load_of_load hc env'
  have hattempts : c'.get .connectAttempts = c.get .connectAttempts :=
    hfields .connectAttempts fun v =>
      iff_of_false (Field.not_isOverridden rfl env v) (Field.not_isOverridden rfl env' v)
  exact ⟨c', hc', hattempts, hfields⟩

/-- A file that gives a port, a timeout and something that is no field. -/
def sampleFile : String := "\x7b\"port\": 4006, \"timeout_secs\": 60, \"theme\": null\x7d"

/-- An environment with a host, a port out of range and a timeout behind a plus. -/
def sampleEnvironment : String → Option String
  | "SWANK_HOST" => some "lisp.local"
  | "SWANK_PORT" => some "70000"
  | "SWANK_TIMEOUT_SECS" => some "+90"
  | _ => none

/-- The port comes from the file, the host and the timeout from the environment, and the
rest from the defaults. -/
theorem each_field_finds_its_layer_sample :
    loadFrom (some (Text.utf8 sampleFile)) sampleEnvironment
      = .ok ⟨"lisp.local", 4006, 90, "CL-USER", 1⟩ := by
  have hj : IsJson sampleFile (.object [("port".toList, .number ['4', '0', '0', '6']),
      ("timeout_secs".toList, .number ['6', '0']), ("theme".toList, .word "null")]) := by
    rw [← parse?_eq_some_iff, parse?]
    simp only [sampleFile, String.reduceToList]
    rfl
  obtain ⟨hshape, hget⟩ := (ofJson?_eq_some_iff hj.isSpelled).1
    (show ConfigLayer.ofJson? _ = some ⟨none, some 4006, some 60, none, none⟩ by rfl)
  refine ((each_field_finds_its_layer sampleEnvironment).1 _ _).2 (.loaded rfl hj hshape ?_)
  exact (isLayered_iff hget sampleEnvironment _).2 (by decide)

end Config

end LispLink
