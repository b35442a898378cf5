/-
  LispLink.Proofs.Session.Stranding
  ────────────────────────────────
  **NOBODY WAITS FOREVER ON A SESSION THAT WENT DOWN.**

  A request goes from its dispatch into the table, from there into the hand of
  whoever takes it out, and from the hand to its caller; it is never in two places,
  and only its own dispatch gives it up:

      dispatch ──▸ table ──▸ hand of a reply or of a shutdown ──▸ mailbox

  What is left in the table when a session goes down was entered behind the
  emptying.  By then the writer is gone, so that its dispatch cannot have written
  it: it is still to find that out and to withdraw its request.
-/
import LispLink.Proofs.Session.Interleaving

namespace LispLink.Session.Interleaved

/-! ## §1. Where requests are. -/

/-- The letters that a task has in hand. -/
def Task.letters : Task → List Letter
  | .reply (.delivering ls) => ls
  | .shutDown _ (.rejecting ls) => ls
  | _ => []

/-- The id under which a dispatch has its request in the table, until it has
written it. -/
def Task.entered? : Task → Option UInt64
  | .dispatch (.entered id _) | .dispatch (.refused id _) => some id
  | _ => none

/-- Whether a task is to empty the table next. -/
def Task.isFlagged : Task → Bool
  | .shutDown _ .flagged => true
  | _ => false

/-- Whether a task has shut the session down. -/
def Task.isDown : Task → Bool
  | .shutDown _ .finished => true
  | _ => false

/-- Whether a task is no dispatch or shutdown that is midway. -/
def Task.isAtRest : Task → Bool
  | .dispatch (.returned _) => true
  | .dispatch _ => false
  | .shutDown _ .finished => true
  | .shutDown _ _ => false
  | .reply _ => true

/-- Whether a task is a dispatch that has returned a handle. -/
def Task.hasHandle : Task → Bool
  | .dispatch (.returned (.ok _)) => true
  | _ => false

/-- How many of its requests may be anywhere: none that was not entered, exactly
one that was, and at most one that the dispatch gave up. -/
def Task.Accounts : Task → Nat → Prop
  | .dispatch (.entered ..), n | .dispatch (.refused ..), n | .dispatch (.returned (.ok _)), n =>
    n = 1
  | .dispatch (.returned (.error _)), n => n ≤ 1
  | _, n => n = 0

/-- What shutting down has done so far. -/
def Task.Shows (s : Shared) : Task → Prop
  | .shutDown _ .called => True
  | .shutDown _ .writerTaken => s.writable = false
  | .shutDown _ _ => s.writable = false ∧ s.closed = true
  | _ => True

/-- The number of requests of a caller in a list. -/
def ofCaller (c : Nat) (ts : List Ticket) : Nat := ts.countP (·.caller = c)

/-- The number of requests of a caller that a task can see: in the table, in the
mailbox and in its own hand. -/
def inSight (c : Nat) (s : Shared) (t : Task) : Nat :=
  ofCaller c s.pending + ofCaller c (s.mailbox.map Prod.fst) + ofCaller c (t.letters.map Prod.fst)

namespace System

/-- The letters that were handed over, and those in the hands of tasks. -/
def letters (y : System) : List Letter := y.shared.mailbox ++ y.tasks.flatMap Task.letters

/-- The outcomes that the caller of a dispatch has received. -/
def received (y : System) (c : Nat) : List Outcome :=
  (y.shared.mailbox.filter (·.1.caller = c)).map Prod.snd

/-- The outcomes of a dispatch: those that its caller has received, and those that
someone is about to hand over. -/
def decided (y : System) (c : Nat) : List Outcome :=
  (y.letters.filter (·.1.caller = c)).map Prod.snd

/-- Whether the handling of an answer is about to hand this outcome of a dispatch
over. -/
def IsInHand (y : System) (c : Nat) (o : Outcome) : Prop :=
  ∃ (i : Nat) (ls : List Letter) (t : Ticket),
    y.tasks[i]? = some (.reply (.delivering ls)) ∧ (t, o) ∈ ls ∧ t.caller = c

/-- The number of requests of a caller, wherever they are. -/
def held (y : System) (c : Nat) : Nat :=
  ofCaller c y.shared.pending + ofCaller c (y.letters.map Prod.fst)

end System

/-! ## §2. Counting requests. -/

@[simp] theorem ofCaller_nil (c : Nat) : ofCaller c [] = 0 := rfl

@[simp] theorem ofCaller_append (c : Nat) (ts us : List Ticket) :
    ofCaller c (ts ++ us) = ofCaller c ts + ofCaller c us := List.countP_append

theorem ofCaller_singleton (c : Nat) (t : Ticket) :
    ofCaller c [t] = if t.caller = c then 1 else 0 := by
  simp [ofCaller, List.countP_singleton]

@[simp] theorem refusals_fst (ts : List Ticket) : (Shared.refusals ts).map Prod.fst = ts := by
  simp [Shared.refusals, Function.comp_def]

/-- What is under an id and what is not make up the table. -/
theorem ofCaller_under (c : Nat) (s : Shared) (id : UInt64) :
    ofCaller c (s.under id) + ofCaller c (s.others id) = ofCaller c s.pending := by
  unfold ofCaller Shared.under Shared.others
  rw [List.countP_eq_countP_filter_add s.pending _ (·.id = id)]
  simp

theorem ofCaller_filter_ne (c : Nat) (t : Ticket) (ts : List Ticket) :
    ofCaller c (ts.filter (· ≠ t)) ≤ ofCaller c ts
      ∧ (t.caller ≠ c → ofCaller c (ts.filter (· ≠ t)) = ofCaller c ts) := by
  constructor
  · exact List.filter_sublist.countP_le
  · intro hne
    unfold ofCaller
    rw [List.countP_filter]
    refine List.countP_congr fun u _ => ?_
    simp only [decide_eq_true_eq, Bool.and_eq_true, ne_eq]
    constructor
    · exact fun h => h.1
    · rintro hu
      refine ⟨hu, ?_⟩
      rintro rfl
      exact hne hu

/-! ## §3. What a step does to requests. -/

section

variable {i : Nat} {fault : Option String} {s : Shared}

/-- Entering a request puts one of its own caller into the table, and leaves the
number of every other caller's as it is. -/
theorem inSight_enter (c : Nat) (id : UInt64) (framed : String) :
    inSight c (s.enter ⟨id, i⟩) (.dispatch (.entered id framed))
      = inSight c s (.dispatch (.encoded id framed)) + if i = c then 1 else 0 := by
  have hunder := ofCaller_under c s id
  have hsingle := ofCaller_singleton c ⟨id, i⟩
  simp only [inSight, Shared.enter, Task.letters, List.map_append, refusals_fst, ofCaller_append,
    hsingle, List.map_nil, ofCaller_nil]
  omega

/-- Withdrawing a request loses none of another caller. -/
theorem inSight_withdraw (c : Nat) (id : UInt64) (e : Error) :
    let after := inSight c (s.withdraw ⟨id, i⟩) (.dispatch (.returned (.error e)))
    let before := inSight c s (.dispatch (.refused id e))
    after ≤ before ∧ (i ≠ c → after = before) := by
  intro after before
  have hunder := ofCaller_under c s id
  obtain ⟨hle, heq⟩ := ofCaller_filter_ne c ⟨id, i⟩ (s.under id)
  simp only [after, before, inSight, Shared.withdraw, Task.letters, List.map_append, refusals_fst,
    ofCaller_append, List.map_nil, ofCaller_nil]
  refine ⟨by omega, ?_⟩
  intro hne
  have heq := heq hne
  omega

theorem inSight_write {framed : String} {s' : Shared} (h : s.write framed fault = .ok s')
    (c : Nat) (t t' : Task) (ht : t.letters = t'.letters) : inSight c s' t' = inSight c s t := by
  unfold Shared.write at h
  split at h
  · split at h
    · cases h
      rw [inSight, inSight, ht]
    · cases h
  · cases h

theorem inSight_deliver (c : Nat) (l : Letter) (t t' : Task)
    (ht : t.letters = l :: t'.letters) : inSight c (s.deliver l) t' = inSight c s t := by
  have hl : ofCaller c (t.letters.map Prod.fst)
      = ofCaller c [l.1] + ofCaller c (t'.letters.map Prod.fst) := by
    rw [ht, List.map_cons, ← ofCaller_append]
    rfl
  simp only [inSight, Shared.deliver, List.map_append, ofCaller_append, List.map_cons,
    List.map_nil, hl]
  omega

/-- An answer and a shutdown only move requests about. -/
theorem inSight_reply (c : Nat) (r : Replying) :
    inSight c (r.step s).1 (.reply (r.step s).2) = inSight c s (.reply r) := by
  cases r with
  | called id outcome =>
      have hunder := ofCaller_under c s id
      have hletters : ((s.under id).map fun t => (t, outcome)).map Prod.fst = s.under id := by
        simp [Function.comp_def]
      simp only [Replying.step, inSight, Task.letters, hletters, List.map_nil, ofCaller_nil]
      show ofCaller c (s.others id) + _ + _ = _
      omega
  | delivering ls =>
      cases ls with
      | nil => rfl
      | cons l ls => exact inSight_deliver c l (.reply (.delivering (l :: ls))) _ rfl

theorem inSight_shutDown (c : Nat) (failure : Option String) (x : ShuttingDown) :
    inSight c (x.step failure s).1 (.shutDown failure (x.step failure s).2)
      = inSight c s (.shutDown failure x) := by
  cases x with
  | called => rfl
  | writerTaken =>
      simp only [ShuttingDown.step]
      split <;> rfl
  | flagged =>
      simp only [ShuttingDown.step, inSight, Task.letters, refusals_fst, List.map_nil,
        ofCaller_nil]
      omega
  | rejecting ls =>
      cases ls with
      | nil => rfl
      | cons l ls =>
          exact inSight_deliver c l (.shutDown failure (.rejecting (l :: ls))) _ rfl
  | finished => rfl

/-- What a dispatch does to the requests of other callers, and to those of its
own, of which `k` are out of its sight. -/
theorem inSight_dispatch (d : Dispatching) :
    let after := d.step i fault s
    (∀ c, c ≠ i → inSight c after.1 (.dispatch after.2) = inSight c s (.dispatch d))
      ∧ ∀ k, (Task.dispatch d).Accounts (inSight i s (.dispatch d) + k) →
          (Task.dispatch after.2).Accounts (inSight i after.1 (.dispatch after.2) + k) := by
  cases d with
  | called form package thread =>
      simp only [Dispatching.step]
      split
      · exact ⟨fun _ _ => rfl, fun k h => Nat.le_trans (Nat.le_of_eq h) (Nat.zero_le 1)⟩
      · exact ⟨fun _ _ => rfl, fun k h => h⟩
  | admitted form package thread =>
      simp only [Dispatching.step]
      cases Wire.encodeRequest s.nextId form package thread with
      | error e => exact ⟨fun _ _ => rfl, fun k h => Nat.le_trans (Nat.le_of_eq h) (Nat.zero_le 1)⟩
      | ok framed => exact ⟨fun _ _ => rfl, fun k h => h⟩
  | encoded id framed =>
      refine ⟨fun c hc => ?_, fun k h => ?_⟩
      · have henter := inSight_enter (i := i) (s := s) c id framed
        rw [if_neg (Ne.symm hc)] at henter
        exact henter
      · have henter := inSight_enter (i := i) (s := s) i id framed
        rw [if_pos rfl] at henter
        show inSight i (s.enter ⟨id, i⟩) (.dispatch (.entered id framed)) + k = 1
        have hnone : inSight i s (.dispatch (.encoded id framed)) + k = 0 := h
        omega
  | entered id framed =>
      simp only [Dispatching.step]
      cases hwrite : s.write framed fault with
      | ok s' =>
          have hsame : ∀ c, inSight c s' (.dispatch (.returned (.ok ⟨id, s'.timeout⟩)))
              = inSight c s (.dispatch (.entered id framed)) :=
            fun c => inSight_write hwrite c _ _ rfl
          refine ⟨fun c _ => hsame c, fun k h => ?_⟩
          show inSight i s' (.dispatch (.returned (.ok ⟨id, s'.timeout⟩))) + k = 1
          rw [hsame]
          exact h
      | error e => exact ⟨fun _ _ => rfl, fun k h => h⟩
  | refused id e =>
      refine ⟨fun c hc => (inSight_withdraw c id e).2 (Ne.symm hc), fun k h => ?_⟩
      obtain ⟨hle, _⟩ := inSight_withdraw (i := i) (s := s) i id e
      have hone : inSight i s (.dispatch (.refused id e)) + k = 1 := h
      show inSight i (s.withdraw ⟨id, i⟩) (.dispatch (.returned (.error e))) + k ≤ 1
      omega
  | returned result => exact ⟨fun _ _ => rfl, fun k h => h⟩

/-- **What a step does to requests**: nothing to those of other callers, and with
those of its own the task keeps its account. -/
theorem inSight_step (t : Task) :
    let after := t.step i fault s
    (∀ c, c ≠ i → inSight c after.1 after.2 = inSight c s t)
      ∧ ∀ k, t.Accounts (inSight i s t + k) → after.2.Accounts (inSight i after.1 after.2 + k) := by
  cases t with
  | dispatch d => exact inSight_dispatch d
  | reply r =>
      refine ⟨fun c _ => inSight_reply c r, fun k h => ?_⟩
      show inSight i (r.step s).1 (.reply (r.step s).2) + k = 0
      rw [inSight_reply]
      exact h
  | shutDown failure x =>
      refine ⟨fun c _ => inSight_shutDown c failure x, fun k h => ?_⟩
      show inSight i (x.step failure s).1 (.shutDown failure (x.step failure s).2) + k = 0
      rw [inSight_shutDown]
      exact h

end

/-! ## §4. What a step does to the connection. -/

section

variable (i : Nat) (fault : Option String) (s : Shared)

/-- Only shutting down touches the connection. -/
theorem connection_dispatch (d : Dispatching) :
    (d.step i fault s).1.writable = s.writable ∧ (d.step i fault s).1.closed = s.closed := by
  cases d with
  | called form package thread =>
      simp only [Dispatching.step]
      split <;> exact ⟨rfl, rfl⟩
  | admitted form package thread =>
      simp only [Dispatching.step]
      split <;> exact ⟨rfl, rfl⟩
  | entered id framed =>
      simp only [Dispatching.step]
      cases hwrite : s.write framed fault with
      | error e => exact ⟨rfl, rfl⟩
      | ok s' =>
          unfold Shared.write at hwrite
          split at hwrite
          · split at hwrite
            · cases hwrite
              exact ⟨rfl, rfl⟩
            · cases hwrite
          · cases hwrite
  | encoded id framed => exact ⟨rfl, rfl⟩
  | refused id e => exact ⟨rfl, rfl⟩
  | returned result => exact ⟨rfl, rfl⟩

theorem connection_reply (r : Replying) :
    (r.step s).1.writable = s.writable ∧ (r.step s).1.closed = s.closed := by
  cases r with
  | called id outcome => exact ⟨rfl, rfl⟩
  | delivering ls => cases ls <;> exact ⟨rfl, rfl⟩

/-- A connection only ever goes down. -/
theorem connection_step (t : Task) :
    let after := (t.step i fault s).1
    (s.writable = false → after.writable = false) ∧ (s.closed = true → after.closed = true) := by
  cases t with
  | dispatch d =>
      obtain ⟨hw, hc⟩ := connection_dispatch i fault s d
      exact ⟨hw.trans, hc.trans⟩
  | reply r =>
      obtain ⟨hw, hc⟩ := connection_reply s r
      exact ⟨hw.trans, hc.trans⟩
  | shutDown failure x =>
      cases x with
      | called => exact ⟨fun _ => rfl, id⟩
      | writerTaken =>
          simp only [Task.step, ShuttingDown.step]
          split
          · exact ⟨id, id⟩
          · exact ⟨id, fun _ => rfl⟩
      | flagged => exact ⟨id, id⟩
      | rejecting ls => cases ls <;> exact ⟨id, id⟩
      | finished => exact ⟨id, id⟩

/-- What a task shows of the connection keeps to be true. -/
theorem shows_of_lower {s s' : Shared} (hw : s.writable = false → s'.writable = false)
    (hc : s.closed = true → s'.closed = true) {t : Task} (ht : t.Shows s) : t.Shows s' := by
  cases t with
  | shutDown failure x =>
      cases x with
      | called => trivial
      | writerTaken => exact hw ht
      | _ => exact ⟨hw ht.1, hc ht.2⟩
  | _ => trivial

/-- **The writer is taken before the flag is set**, so that nobody writes to a
session that is closed. -/
theorem shows_step (t : Task) (hcut : s.closed = true → s.writable = false) (ht : t.Shows s) :
    let after := t.step i fault s
    after.2.Shows after.1 ∧ (after.1.closed = true → after.1.writable = false) := by
  cases t with
  | dispatch d =>
      obtain ⟨hw, hc⟩ := connection_dispatch i fault s d
      refine ⟨trivial, fun h => hw.trans (hcut (hc.symm.trans h))⟩
  | reply r =>
      obtain ⟨hw, hc⟩ := connection_reply s r
      refine ⟨trivial, fun h => hw.trans (hcut (hc.symm.trans h))⟩
  | shutDown failure x =>
      cases x with
      | called => exact ⟨rfl, fun _ => rfl⟩
      | writerTaken =>
          have hw : s.writable = false := ht
          simp only [Task.step, ShuttingDown.step]
          split
          · next hc => exact ⟨⟨hw, hc⟩, fun _ => hw⟩
          · exact ⟨⟨hw, rfl⟩, fun _ => hw⟩
      | flagged => exact ⟨ht, fun _ => ht.1⟩
      | rejecting ls => cases ls <;> exact ⟨ht, fun _ => ht.1⟩
      | finished => exact ⟨ht, fun _ => ht.1⟩

end

/-! ## §5. What is left in the table. -/

section

variable {i : Nat} {fault : Option String} {s : Shared}

/-- Without a writer a dispatch leaves nothing of its own in the table but what it
is to withdraw. -/
theorem late_dispatch (d : Dispatching) (hw : s.writable = false)
    (hown : ∀ u ∈ s.pending, u.caller = i → (Task.dispatch d).entered? = some u.id) :
    let after := d.step i fault s
    ∀ u ∈ after.1.pending, (u.caller ≠ i → u ∈ s.pending)
      ∧ (u.caller = i → (Task.dispatch after.2).entered? = some u.id) := by
  cases d with
  | called form package thread =>
      simp only [Dispatching.step]
      split
      · exact fun u hu => ⟨fun _ => hu, hown u hu⟩
      · exact fun u hu => ⟨fun _ => hu, hown u hu⟩
  | admitted form package thread =>
      simp only [Dispatching.step]
      split
      · exact fun u hu => ⟨fun _ => hu, hown u hu⟩
      · -- it has nothing in the table yet
        intro u hu
        refine ⟨fun _ => hu, fun hi => ?_⟩
        cases hown u hu hi
  | encoded id framed =>
      intro after u hu
      rcases List.mem_append.1 hu with hu | hu
      · have hmem := (List.mem_filter.1 hu).1
        refine ⟨fun _ => hmem, fun hi => ?_⟩
        cases hown u hmem hi
      · obtain rfl := List.mem_singleton.1 hu
        exact ⟨fun hne => absurd rfl hne, fun _ => rfl⟩
  | entered id framed =>
      have hwrite : s.write framed fault = .error .closed := by
        unfold Shared.write
        rw [hw]
        rfl
      simp only [Dispatching.step, hwrite]
      exact fun u hu => ⟨fun _ => hu, hown u hu⟩
  | refused id e =>
      intro after u hu
      obtain ⟨hmem, hother⟩ := List.mem_filter.1 hu
      refine ⟨fun _ => hmem, fun hi => ?_⟩
      -- its own request is under its id, and is gone
      have hid : id = u.id := Option.some.inj (hown u hmem hi)
      simp [hid] at hother
  | returned result => exact fun u hu => ⟨fun _ => hu, hown u hu⟩

theorem late_reply (r : Replying)
    (hown : ∀ u ∈ s.pending, u.caller = i → (Task.reply r).entered? = some u.id) :
    ∀ u ∈ (r.step s).1.pending, (u.caller ≠ i → u ∈ s.pending)
      ∧ (u.caller = i → (Task.reply (r.step s).2).entered? = some u.id) := by
  cases r with
  | called id outcome =>
      intro u hu
      have hmem := (List.mem_filter.1 hu).1
      refine ⟨fun _ => hmem, fun hi => ?_⟩
      cases hown u hmem hi
  | delivering ls => cases ls <;> exact fun u hu => ⟨fun _ => hu, hown u hu⟩

theorem late_shutDown (failure : Option String) (x : ShuttingDown)
    (hown : ∀ u ∈ s.pending, u.caller = i → (Task.shutDown failure x).entered? = some u.id) :
    ∀ u ∈ (x.step failure s).1.pending, (u.caller ≠ i → u ∈ s.pending)
      ∧ (u.caller = i → (Task.shutDown failure (x.step failure s).2).entered? = some u.id) := by
  cases x with
  | writerTaken =>
      simp only [ShuttingDown.step]
      split <;> exact fun u hu => ⟨fun _ => hu, hown u hu⟩
  | flagged =>
      intro u hu
      cases hu
  | rejecting ls => cases ls <;> exact fun u hu => ⟨fun _ => hu, hown u hu⟩
  | _ => exact fun u hu => ⟨fun _ => hu, hown u hu⟩

/-- **What a step leaves in the table** when the writer is gone: what others have
there, and what the task itself is to withdraw. -/
theorem late_step (t : Task) (hw : s.writable = false)
    (hown : ∀ u ∈ s.pending, u.caller = i → t.entered? = some u.id) :
    let after := t.step i fault s
    ∀ u ∈ after.1.pending, (u.caller ≠ i → u ∈ s.pending)
      ∧ (u.caller = i → after.2.entered? = some u.id) := by
  cases t with
  | dispatch d => exact late_dispatch d hw hown
  | reply r => exact late_reply r hown
  | shutDown failure x => exact late_shutDown failure x hown

/-- Who sets the flag is to empty the table. -/
theorem closed_of_step (t : Task) (hc : (t.step i fault s).1.closed = true)
    (hflagged : (t.step i fault s).2.isFlagged = false) : s.closed = true := by
  cases t with
  | dispatch d => exact (connection_dispatch i fault s d).2.symm.trans hc
  | reply r => exact (connection_reply s r).2.symm.trans hc
  | shutDown failure x =>
      cases x with
      | writerTaken =>
          simp only [Task.step, ShuttingDown.step] at hc hflagged
          split at hflagged
          · assumption
          · cases hflagged
      | rejecting ls =>
          cases ls <;> exact hc
      | _ => exact hc

/-- Who is to empty the table does so. -/
theorem pending_of_flagged (t : Task) (hflagged : t.isFlagged = true) :
    (t.step i fault s).1.pending = [] := by
  cases t with
  | shutDown failure x =>
      cases x with
      | flagged => rfl
      | _ => cases hflagged
  | _ => cases hflagged

end

/-! ## §6. What a run keeps. -/

/-- What holds of every run.  `late` says what is in the table of a closed session
once it was emptied: requests that their dispatches are still to withdraw. -/
structure IsSafe (y : System) : Prop where
  accounted : ∀ (c : Nat) (t : Task), y.tasks[c]? = some t → t.Accounts (y.held c)
  unowned : ∀ c : Nat, y.tasks[c]? = none → y.held c = 0
  shows : ∀ t ∈ y.tasks, t.Shows y.shared
  cut : y.shared.closed = true → y.shared.writable = false
  late : y.shared.closed = true → (∀ t ∈ y.tasks, t.isFlagged = false) →
    ∀ u ∈ y.shared.pending, y.tasks[u.caller]?.bind Task.entered? = some u.id

theorem isSafe_idle : IsSafe .idle :=
  ⟨nofun, fun _ _ => rfl, nofun, nofun, fun _ _ => nofun⟩

/-- The requests of a caller are in the sight of a task, or in the hands of
others. -/
theorem held_eq {y : System} {i : Nat} {t : Task} (h : y.tasks[i]? = some t) (c : Nat) :
    ∃ k, y.held c = inSight c y.shared t + k ∧
      ∀ s' t', System.held ⟨s', y.tasks.set i t'⟩ c = inSight c s' t' + k := by
  obtain ⟨hi, ht⟩ := List.getElem?_eq_some_iff.1 h
  have hset : ∀ t', y.tasks.set i t' = y.tasks.take i ++ t' :: y.tasks.drop (i + 1) := by
    intro t'
    rw [List.set_eq_take_append_cons_drop, if_pos hi]
  have hself : y.tasks = y.tasks.set i t := by rw [← ht, List.set_getElem_self]
  let k := ofCaller c (((y.tasks.take i).flatMap Task.letters).map Prod.fst)
    + ofCaller c (((y.tasks.drop (i + 1)).flatMap Task.letters).map Prod.fst)
  have hall : ∀ s' t', System.held ⟨s', y.tasks.set i t'⟩ c = inSight c s' t' + k := by
    intro s' t'
    rw [System.held, System.letters, hset]
    simp only [List.flatMap_append, List.flatMap_cons, List.map_append, ofCaller_append, inSight, k]
    omega
  refine ⟨k, ?_, hall⟩
  rw [← hall, ← hself]

/-- A task that has taken no step holds nothing. -/
theorem fresh_task (c : Call) (s : Shared) :
    c.task.letters = [] ∧ c.task.entered? = none ∧ c.task.Shows s ∧ c.task.Accounts 0 := by
  cases c <;> exact ⟨rfl, rfl, trivial, rfl⟩

theorem isSafe_begin {y : System} (h : IsSafe y) (c : Call) : IsSafe (y.act (.begin c)) := by
  obtain ⟨hletters, _, hshows, haccounts⟩ := fresh_task c y.shared
  have hheld : ∀ i, (y.act (.begin c)).held i = y.held i := by
    intro i
    simp [System.act_begin, System.held, System.letters, hletters]
  have hold : ∀ {i : Nat} {t : Task}, y.tasks[i]? = some t →
      (y.tasks ++ [c.task])[i]? = some t := by
    intro i t ht
    obtain ⟨hi, _⟩ := List.getElem?_eq_some_iff.1 ht
    rw [List.getElem?_append_left hi, ht]
  constructor
  case accounted =>
    intro i t ht
    rw [hheld]
    rw [System.act_begin] at ht
    by_cases hi : i < y.tasks.length
    · rw [List.getElem?_append_left hi] at ht
      exact h.accounted i t ht
    · -- the new task has a number that no request knows
      obtain ⟨hlt, _⟩ := List.getElem?_eq_some_iff.1 ht
      obtain rfl : i = y.tasks.length := by
        rw [List.length_append, List.length_singleton] at hlt
        omega
      rw [List.getElem?_concat_length] at ht
      cases ht
      rw [h.unowned _ (List.getElem?_eq_none (Nat.le_refl _))]
      exact haccounts
  case unowned =>
    intro i hi
    rw [hheld]
    refine h.unowned i ?_
    rw [System.act_begin, List.getElem?_eq_none_iff, List.length_append] at hi
    rw [List.getElem?_eq_none_iff]
    omega
  case shows =>
    intro t ht
    rcases List.mem_append.1 ht with ht | ht
    · exact h.shows t ht
    · rw [List.mem_singleton.1 ht]
      exact hshows
  case cut => exact h.cut
  case late =>
    intro hc hnone u hu
    have hwas := h.late hc (fun t ht => hnone t (List.mem_append_left _ ht)) u hu
    cases ht : y.tasks[u.caller]? with
    | none =>
        rw [ht] at hwas
        cases hwas
    | some t =>
        rw [ht] at hwas
        show ((y.tasks ++ [c.task])[u.caller]?).bind _ = _
        rw [hold ht]
        exact hwas

theorem isSafe_advance {y : System} (h : IsSafe y) (i : Nat) (fault : Option String) :
    IsSafe (y.act (.advance i fault)) := by
  cases ht : y.tasks[i]? with
  | none =>
      rw [System.act, ht]
      exact h
  | some t =>
      rw [System.act_advance ht]
      obtain ⟨hi, _⟩ := List.getElem?_eq_some_iff.1 ht
      obtain ⟨hothers, hown⟩ := @inSight_step i fault y.shared t
      obtain ⟨hwritable, hclosed⟩ := connection_step i fault y.shared t
      obtain ⟨hshows, hcut⟩ :=
        shows_step i fault y.shared t h.cut (h.shows t (List.mem_of_getElem? ht))
      have hleft := @late_step i fault y.shared t
      have hcame := @closed_of_step i fault y.shared t
      have hemptied := @pending_of_flagged i fault y.shared t
      generalize t.step i fault y.shared = after at *
      -- the requests of other callers are where they were, or in other places
      have hheld : ∀ c, c ≠ i → System.held ⟨after.1, y.tasks.set i after.2⟩ c = y.held c := by
        intro c hc
        obtain ⟨k, hwas, his⟩ := held_eq ht c
        rw [his, hwas, hothers c hc]
      constructor
      case accounted =>
        intro c t' ht'
        by_cases hc : c = i
        · subst hc
          rw [List.getElem?_set_self hi] at ht'
          cases ht'
          obtain ⟨k, hwas, his⟩ := held_eq ht c
          rw [his]
          refine hown k ?_
          rw [← hwas]
          exact h.accounted c t ht
        · rw [List.getElem?_set_ne (Ne.symm hc)] at ht'
          rw [hheld c hc]
          exact h.accounted c t' ht'
      case unowned =>
        intro c hc
        rw [List.getElem?_eq_none_iff, List.length_set] at hc
        rw [hheld c (by omega)]
        exact h.unowned c (List.getElem?_eq_none hc)
      case shows =>
        intro t' ht'
        rcases List.mem_or_eq_of_mem_set ht' with ht' | rfl
        · exact shows_of_lower hwritable hclosed (h.shows t' ht')
        · exact hshows
      case cut => exact hcut
      case late =>
        intro hc hnone u hu
        cases hflagged : t.isFlagged with
        | true =>
            have hu : u ∈ after.1.pending := hu
            rw [hemptied hflagged] at hu
            cases hu
        | false =>
            have hwas := hcame hc (hnone after.2 (List.mem_set hi after.2))
            have hlate := h.late hwas <| by
              intro t' ht'
              obtain ⟨j, hj⟩ := List.mem_iff_getElem?.1 ht'
              by_cases hij : i = j
              · subst hij
                rw [ht] at hj
                cases hj
                exact hflagged
              · refine hnone t' (List.mem_iff_getElem?.2 ⟨j, ?_⟩)
                rw [List.getElem?_set_ne hij]
                exact hj
            have hmine : ∀ v ∈ y.shared.pending, v.caller = i → t.entered? = some v.id := by
              rintro v hv rfl
              have hv' := hlate v hv
              rw [ht] at hv'
              exact hv'
            obtain ⟨hothers', hown'⟩ := hleft (h.cut hwas) hmine u hu
            show ((y.tasks.set i after.2)[u.caller]?).bind _ = _
            by_cases hcaller : u.caller = i
            · rw [hcaller, List.getElem?_set_self hi]
              exact hown' hcaller
            · rw [List.getElem?_set_ne (Ne.symm hcaller)]
              exact hlate u (hothers' hcaller)

theorem isSafe_act {y : System} (h : IsSafe y) (a : Action) : IsSafe (y.act a) := by
  cases a with
  | begin c => exact isSafe_begin h c
  | advance i fault => exact isSafe_advance h i fault

/-- **Every run is safe.** -/
theorem isSafe_run (as : List Action) : IsSafe (System.run as) :=
  System.run_induction isSafe_idle (fun _ a h => isSafe_act h a) as

/-! ## §7. Behind a shutdown. -/

section

variable {y : System}

/-- Who has shut the session down has left it closed. -/
theorem closed_of_isDown (h : IsSafe y) {t : Task} (ht : t ∈ y.tasks) (hdown : t.isDown = true) :
    y.shared.closed = true := by
  have hshows := h.shows t ht
  cases t with
  | shutDown failure x =>
      cases x with
      | finished => exact hshows.2
      | _ => cases hdown
  | _ => cases hdown

theorem isFlagged_of_isAtRest {t : Task} (h : t.isAtRest = true) : t.isFlagged = false := by
  cases t with
  | shutDown failure x =>
      cases x with
      | finished => rfl
      | _ => cases h
  | _ => rfl

theorem entered?_of_isAtRest {t : Task} (h : t.isAtRest = true) : t.entered? = none := by
  cases t with
  | dispatch d =>
      cases d with
      | returned result => rfl
      | _ => cases h
  | _ => rfl

/-- A table that was emptied, and that no dispatch is at work on, is empty. -/
theorem pending_eq_nil (h : IsSafe y) (hc : y.shared.closed = true)
    (hrest : ∀ t ∈ y.tasks, t.isAtRest = true) : y.shared.pending = [] := by
  have hlate := h.late hc fun t ht => isFlagged_of_isAtRest (hrest t ht)
  rw [List.eq_nil_iff_forall_not_mem]
  intro u hu
  -- whoever has left a request there is still to withdraw it
  obtain ⟨t, ht, hentered⟩ := Option.bind_eq_some_iff.1 (hlate u hu)
  rw [entered?_of_isAtRest (hrest t (List.mem_of_getElem? ht))] at hentered
  cases hentered

theorem length_decided (y : System) (c : Nat) :
    (y.decided c).length = ofCaller c (y.letters.map Prod.fst) := by
  rw [System.decided, List.length_map, ofCaller, List.countP_map, List.countP_eq_length_filter]
  rfl

/-- What is decided has been received, or is in somebody's hand. -/
theorem decided_eq (y : System) (c : Nat) :
    y.decided c = y.received c
      ++ ((y.tasks.flatMap Task.letters).filter (·.1.caller = c)).map Prod.snd := by
  rw [System.decided, System.received, System.letters, List.filter_append, List.map_append]

/-- Among tasks at rest, only answers have something in hand. -/
theorem delivering_of_mem_letters {t : Task} {l : Letter} (h : t.isAtRest = true)
    (hl : l ∈ t.letters) : ∃ ls, t = .reply (.delivering ls) ∧ l ∈ ls := by
  cases t with
  | dispatch d => cases hl
  | reply r =>
      cases r with
      | called id outcome => cases hl
      | delivering ls => exact ⟨ls, rfl, hl⟩
  | shutDown failure x =>
      cases x with
      | finished => cases hl
      | _ => cases h

/-- The only outcome of a dispatch has been received, or is in the hand of an answer. -/
theorem received_or_isInHand (hrest : ∀ t ∈ y.tasks, t.isAtRest = true) {c : Nat} {o : Outcome}
    (h : y.decided c = [o]) : y.received c = [o] ∨ (y.received c = [] ∧ y.IsInHand c o) := by
  rw [decided_eq] at h
  rcases List.append_eq_singleton_iff.1 h with ⟨hnone, hhand⟩ | ⟨hreceived, _⟩
  · right
    refine ⟨hnone, ?_⟩
    obtain ⟨⟨t, _⟩, hl, rfl⟩ := List.mem_map.1 (hhand ▸ List.mem_singleton_self o)
    obtain ⟨hmem, hcaller⟩ := List.mem_filter.1 hl
    obtain ⟨task, htask, hl⟩ := List.mem_flatMap.1 hmem
    obtain ⟨ls, rfl, hls⟩ := delivering_of_mem_letters (hrest task htask) hl
    obtain ⟨i, hi⟩ := List.mem_iff_getElem?.1 htask
    exact ⟨i, ls, t, hi, hls, of_decide_eq_true hcaller⟩
  · exact .inl hreceived

end

/-- **Nobody waits forever on a session that went down.**  Let any dispatches,
answers and shutdowns take their steps by turns, in whatever order.  Whenever one
of the shutdowns is through and no dispatch or shutdown is midway, the table is
empty, and every dispatch has either returned an error, or returned a handle with
exactly one outcome.  That outcome has been received, or else an answer is just
between taking the request out of the table and handing it over. -/
theorem nobody_stranded (as : List Action)
    (hdown : ∃ t ∈ (System.run as).tasks, t.isDown = true)
    (hrest : ∀ t ∈ (System.run as).tasks, t.isAtRest = true) :
    (System.run as).shared.pending = [] ∧
      ∀ c d, (System.run as).tasks[c]? = some (.dispatch d) →
        (∃ e, d = .returned (.error e)) ∨
          ∃ handle outcome, d = .returned (.ok handle)
            ∧ (System.run as).decided c = [outcome]
            ∧ ((System.run as).received c = [outcome]
              ∨ ((System.run as).received c = [] ∧ (System.run as).IsInHand c outcome)) := by
  have h := isSafe_run as
  obtain ⟨t, ht, hdown⟩ := hdown
  have hempty := pending_eq_nil h (closed_of_isDown h ht hdown) hrest
  refine ⟨hempty, ?_⟩
  intro c d hd
  have hreturned := hrest _ (List.mem_of_getElem? hd)
  cases d with
  | returned result =>
      cases result with
      | error e => exact .inl ⟨e, rfl⟩
      | ok handle =>
          right
          have hone : (System.run as).held c = 1 := h.accounted c _ hd
          rw [System.held, hempty, ofCaller_nil, Nat.zero_add, ← length_decided] at hone
          obtain ⟨outcome, houtcome⟩ := List.length_eq_one_iff.1 hone
          exact ⟨handle, outcome, rfl, houtcome, received_or_isInHand hrest houtcome⟩
  | _ => cases hreturned

theorem Task.exists_of_hasHandle {t : Task} (h : t.hasHandle = true) :
    ∃ handle, t = .dispatch (.returned (.ok handle)) := by
  unfold hasHandle at h
  split at h
  · exact ⟨_, rfl⟩
  · cases h

/-- Two dispatches and two shutdowns by turns: the first request is answered while
the session goes down, the second is entered before the table is emptied but
finds no writer, and a third comes too late. -/
theorem nobody_stranded_by_turns :
    let step (i : Nat) : Action := .advance i none
    let send : Action := .begin (.dispatch (.call "swank:x" []) "CL-USER" .any)
    let as : List Action :=
      [send, step 0, step 0, step 0, step 0, send, step 1, step 1, step 1,
        .begin (.reply 1 (.ok (.keyword "done"))), step 2, .begin (.shutDown none),
        .begin (.shutDown (some "bad frame")), step 3, step 4, step 4, step 3, step 4, step 1,
        send, step 5, step 4, step 2, step 1, step 4]
    let y := System.run as
    (∃ t ∈ y.tasks, t.isDown = true) ∧ (∀ t ∈ y.tasks, t.isAtRest = true)
      ∧ y.shared.pending = [] ∧ (∃ t ∈ y.tasks[0]?, t.hasHandle = true)
      ∧ y.received 0 = [.ok (.keyword "done")] := by
  intro step send as y
  have hdown : ∃ t ∈ y.tasks, t.isDown = true := by decide
  have hrest : ∀ t ∈ y.tasks, t.isAtRest = true := by decide
  have hhandle : ∃ t ∈ y.tasks[0]?, t.hasHandle = true := by decide
  have hsome : y.received 0 ≠ [] := by decide
  have hdone : ∀ o ∈ y.received 0, o = .ok (.keyword "done") := by decide
  -- from here on the run need not be looked at
  clear_value as
  obtain ⟨hempty, hdispatches⟩ := nobody_stranded as hdown hrest
  refine ⟨hdown, hrest, hempty, hhandle, ?_⟩
  obtain ⟨_, ht, hhandle⟩ := hhandle
  obtain ⟨handle, rfl⟩ := Task.exists_of_hasHandle hhandle
  rcases hdispatches 0 _ ht with ⟨e, he⟩ | ⟨_, outcome, _, _, hreceived | ⟨hnone, _⟩⟩
  · cases he
  · have hmem : outcome ∈ y.received 0 := hreceived ▸ List.mem_singleton_self outcome
    rw [← hdone outcome hmem]
    exact hreceived
  · exact absurd hnone hsome

/-- **A handle may be without its outcome while an answer is midway**: the answer has
taken the request out of the table, so that the shutdown finds nobody to refuse, and
has not handed the outcome over. -/
theorem answer_between_its_steps :
    ¬ ∀ as, (∃ t ∈ (System.run as).tasks, t.isDown = true) →
      (∀ t ∈ (System.run as).tasks, t.isAtRest = true) →
      (System.run as).shared.pending = [] ∧
        ∀ c d, (System.run as).tasks[c]? = some (.dispatch d) →
          (∃ e, d = .returned (.error e)) ∨
            ∃ handle outcome, d = .returned (.ok handle)
              ∧ (System.run as).received c = [outcome] := by
  intro h
  let step (i : Nat) : Action := .advance i none
  let as : List Action :=
    [.begin (.dispatch (.call "swank:x" []) "CL-USER" .any), step 0, step 0, step 0, step 0,
      .begin (.reply 1 (.ok .t)), step 1, .begin (.shutDown none), step 2, step 2, step 2, step 2]
  have hdown : ∃ t ∈ (System.run as).tasks, t.isDown = true := by decide
  have hrest : ∀ t ∈ (System.run as).tasks, t.isAtRest = true := by decide
  have hhandle : ∃ t ∈ (System.run as).tasks[0]?, t.hasHandle = true := by decide
  have hnone : (System.run as).received 0 = [] := by decide
  clear_value as
  obtain ⟨_, ht, hhandle⟩ := hhandle
  obtain ⟨handle, rfl⟩ := Task.exists_of_hasHandle hhandle
  rcases (h as hdown hrest).2 0 _ ht with ⟨e, he⟩ | ⟨_, outcome, _, hreceived⟩
  · cases he
  · rw [hnone] at hreceived
    cases hreceived

end LispLink.Session.Interleaved
