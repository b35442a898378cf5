/-
  LispLink.Proofs.Session.Interleaving
  ────────────────────────────────
  **OPERATIONS THAT TAKE THEIR STEPS BY TURNS.**

  Sending, answering and shutting down share one session, and each of them takes
  several steps on it.  Whatever else is under way may take its own steps in
  between:

      dispatch    is it closed? │ an id, encode │ enter │ write │ (withdraw)
      reply       take it out of the table │ hand the outcome over
      shutDown    take the writer │ set the flag │ empty the table
                    │ hand an outcome over │ … │ announce the end

  Who waits for an outcome is told by a ticket, and not by the id alone, since
  ids come round again after 2⁶⁴ requests.  A task that takes its steps in a row
  does what the operation of the session does (`perform_dispatch`,
  `perform_reply`, `perform_shutDown`).
-/
import LispLink.Session.Basic

namespace LispLink.Session.Interleaved

open Wire

/-! ## §1. What is shared. -/

/-- A request that waits for its outcome: its id, and the number of the task
that sent it. -/
structure Ticket where
  id : UInt64
  caller : Nat
  deriving DecidableEq, Repr

/-- An outcome, and the request that it is for. -/
abbrev Letter := Ticket × Outcome

/-- What the operations on a session share. -/
structure Shared where
  writable : Bool
  closed : Bool
  nextId : UInt64
  /-- The table of requests, at most one under each id. -/
  pending : List Ticket
  /-- The outcomes that were handed over. -/
  mailbox : List Letter
  outbox : List String
  notices : List Notice
  timeout : Nat

namespace Shared

/-- A fresh connection. -/
def fresh : Shared where
  writable := true
  closed := false
  nextId := 1
  pending := []
  mailbox := []
  outbox := []
  notices := []
  timeout := defaultTimeout

/-- The session that is shared, in which ids alone tell requests apart.  No
operation here touches what is taken from `rest`. -/
def session (s : Shared) (rest : Session) : Session :=
  { rest with
    writable := s.writable
    closed := s.closed
    nextId := s.nextId
    pending := s.pending.map Ticket.id
    mailbox := s.mailbox.map fun l => (l.1.id, l.2)
    outbox := s.outbox
    notices := s.notices
    timeout := s.timeout }

/-- The requests in the table under an id. -/
def under (s : Shared) (id : UInt64) : List Ticket := s.pending.filter (·.id = id)

/-- The requests in the table under other ids. -/
def others (s : Shared) (id : UInt64) : List Ticket := s.pending.filter (·.id ≠ id)

/-- What callers hear whose requests nobody will answer. -/
def refusals (ts : List Ticket) : List Letter := ts.map (·, .error .closed)

/-- Enter a request in the table.  One that was there under the same id is
dropped, and its caller hears that nobody will answer. -/
def enter (s : Shared) (t : Ticket) : Shared :=
  { s with
    pending := s.others t.id ++ [t]
    mailbox := s.mailbox ++ refusals (s.under t.id) }

/-- Take what is under the id of a request out of the table.  The request itself
has no caller that waits; another one that is dropped with it has. -/
def withdraw (s : Shared) (t : Ticket) : Shared :=
  { s with
    pending := s.others t.id
    mailbox := s.mailbox ++ refusals ((s.under t.id).filter (· ≠ t)) }

/-- Hand an outcome over. -/
def deliver (s : Shared) (l : Letter) : Shared := { s with mailbox := s.mailbox ++ [l] }

/-- Write a frame, unless the writer is gone or the connection fails. -/
def write (s : Shared) (framed : String) (fault : Option String) : Except Error Shared :=
  if s.writable then
    match fault with
    | none => .ok { s with outbox := s.outbox ++ [framed] }
    | some reason => .error (.io reason)
  else .error .closed

end Shared

/-! ## §2. Tasks. -/

/-- How far a dispatch has come. -/
inductive Dispatching where
  | called (form : Value) (package : String) (thread : Thread)
  /-- It has found the session open. -/
  | admitted (form : Value) (package : String) (thread : Thread)
  /-- It has an id, and the frame to write. -/
  | encoded (id : UInt64) (framed : String)
  /-- Its request is in the table. -/
  | entered (id : UInt64) (framed : String)
  /-- It could not write, and must withdraw its request. -/
  | refused (id : UInt64) (e : Error)
  | returned (result : Except Error Handle)

/-- How far the handling of an answer has come.  It is done when it holds no
letter any more. -/
inductive Replying where
  | called (id : UInt64) (outcome : Outcome)
  /-- The request is out of the table, and the letters are to be handed over. -/
  | delivering (letters : List Letter)

/-- How far shutting down has come. -/
inductive ShuttingDown where
  | called
  | writerTaken
  /-- It was the first to set the flag. -/
  | flagged
  /-- The table is empty, and the letters are to be handed over. -/
  | rejecting (letters : List Letter)
  | finished

/-- An operation under way. -/
inductive Task where
  | dispatch (d : Dispatching)
  | reply (r : Replying)
  | shutDown (failure : Option String) (x : ShuttingDown)

/-- The next step of a dispatch, which is task number `i`.  The connection may
fail under it while it writes. -/
def Dispatching.step (i : Nat) (fault : Option String) (s : Shared) :
    Dispatching → Shared × Dispatching
  | .called form package thread =>
    if s.closed then (s, .returned (.error .closed)) else (s, .admitted form package thread)
  | .admitted form package thread =>
    let spent := { s with nextId := s.nextId + 1 }
    match encodeRequest s.nextId form package thread with
    | .error e => (spent, .returned (.error (.encode e)))
    | .ok framed => (spent, .encoded s.nextId framed)
  | .encoded id framed => (s.enter ⟨id, i⟩, .entered id framed)
  | .entered id framed =>
    match s.write framed fault with
    | .ok s => (s, .returned (.ok ⟨id, s.timeout⟩))
    | .error e => (s, .refused id e)
  | .refused id e => (s.withdraw ⟨id, i⟩, .returned (.error e))
  | .returned result => (s, .returned result)

/-- The next step of handling an answer. -/
def Replying.step (s : Shared) : Replying → Shared × Replying
  | .called id outcome =>
    ({ s with pending := s.others id }, .delivering ((s.under id).map (·, outcome)))
  | .delivering [] => (s, .delivering [])
  | .delivering (l :: ls) => (s.deliver l, .delivering ls)

/-- The next step of shutting down. -/
def ShuttingDown.step (failure : Option String) (s : Shared) :
    ShuttingDown → Shared × ShuttingDown
  | .called => ({ s with writable := false }, .writerTaken)
  | .writerTaken => if s.closed then (s, .finished) else ({ s with closed := true }, .flagged)
  | .flagged => ({ s with pending := [] }, .rejecting (Shared.refusals s.pending))
  | .rejecting [] =>
    ({ s with notices := s.notices ++ (failure.map Notice.failed).toList ++ [.closed] }, .finished)
  | .rejecting (l :: ls) => (s.deliver l, .rejecting ls)
  | .finished => (s, .finished)

/-- The next step of task number `i`. -/
def Task.step (i : Nat) (fault : Option String) (s : Shared) : Task → Shared × Task
  | .dispatch d => (d.step i fault s).map id .dispatch
  | .reply r => (r.step s).map id .reply
  | .shutDown failure x => (x.step failure s).map id (.shutDown failure)

/-! ## §3. Runs. -/

/-- An operation that is called. -/
inductive Call where
  | dispatch (form : Value) (package : String) (thread : Thread)
  | reply (id : UInt64) (outcome : Outcome)
  | shutDown (failure : Option String)

/-- The task that a call makes; it has taken no step yet. -/
def Call.task : Call → Task
  | dispatch form package thread => .dispatch (.called form package thread)
  | reply id outcome => .reply (.called id outcome)
  | shutDown failure => .shutDown failure .called

/-- A shared session and all tasks that were ever begun, by number. -/
structure System where
  shared : Shared
  tasks : List Task

/-- What can happen next: an operation is called, or a task takes a step. -/
inductive Action where
  | begin (c : Call)
  | advance (i : Nat) (fault : Option String)

namespace System

/-- What is behind an action. -/
def act (y : System) : Action → System
  | .begin c => { y with tasks := y.tasks ++ [c.task] }
  | .advance i fault =>
    match y.tasks[i]? with
    | none => y
    | some t => ⟨(t.step i fault y.shared).1, y.tasks.set i (t.step i fault y.shared).2⟩

/-- What is behind several actions. -/
def acts (y : System) (as : List Action) : System := as.foldl act y

/-- A fresh connection without tasks. -/
def idle : System := ⟨.fresh, []⟩

/-- What is behind several actions on a fresh connection. -/
def run (as : List Action) : System := idle.acts as

@[simp] theorem acts_nil (y : System) : y.acts [] = y := rfl

@[simp] theorem acts_cons (y : System) (a : Action) (as : List Action) :
    y.acts (a :: as) = (y.act a).acts as := rfl

theorem act_begin (y : System) (c : Call) :
    y.act (.begin c) = ⟨y.shared, y.tasks ++ [c.task]⟩ := rfl

theorem act_advance {y : System} {i : Nat} {t : Task} (h : y.tasks[i]? = some t)
    (fault : Option String) :
    y.act (.advance i fault)
      = ⟨(t.step i fault y.shared).1, y.tasks.set i (t.step i fault y.shared).2⟩ := by
  simp only [act, h]

/-- What holds of every run holds of the idle system and is kept by every
action. -/
theorem run_induction {P : System → Prop} (base : P idle)
    (kept : ∀ y a, P y → P (y.act a)) (as : List Action) : P (run as) := by
  have hacts : ∀ y, P y → P (y.acts as) := by
    induction as with
    | nil =>
        intro y hy
        exact hy
    | cons a as ih =>
        intro y hy
        exact ih _ (kept y a hy)
  exact hacts idle base

/-- Call an operation and let it take `n` steps in a row. -/
def perform (y : System) (c : Call) (n : Nat) : System :=
  (y.act (.begin c)).acts (List.replicate n (.advance y.tasks.length none))

end System

/-! ## §4. Steps in a row. -/

/-- A shared session and a task behind `n` steps of the task. -/
def Task.steps (i : Nat) : Nat → Shared × Task → Shared × Task
  | 0, x => x
  | n + 1, x => Task.steps i n (x.2.step i none x.1)

theorem Task.steps_add (i m n : Nat) (x : Shared × Task) :
    Task.steps i (m + n) x = Task.steps i n (Task.steps i m x) := by
  induction m generalizing x with
  | zero => rw [Nat.zero_add, Task.steps]
  | succ m ih => rw [Nat.succ_add, Task.steps, Task.steps, ih]

/-- Nobody else takes a step in between, so that only the task and what is shared
change. -/
theorem System.acts_replicate {i : Nat} (n : Nat) : ∀ {y : System} {t : Task},
    y.tasks[i]? = some t →
      y.acts (List.replicate n (.advance i none))
        = ⟨(Task.steps i n (y.shared, t)).1, y.tasks.set i (Task.steps i n (y.shared, t)).2⟩ := by
  induction n with
  | zero =>
      intro y t h
      rw [List.replicate_zero, acts_nil, Task.steps]
      obtain ⟨hi, rfl⟩ := List.getElem?_eq_some_iff.1 h
      rw [List.set_getElem_self]
  | succ n ih =>
      intro y t h
      obtain ⟨hi, _⟩ := List.getElem?_eq_some_iff.1 h
      rw [List.replicate_succ, acts_cons, act_advance h, ih (t := (t.step i none y.shared).2),
        List.set_set, Task.steps]
      rw [List.getElem?_set_self hi]

theorem System.perform_eq (y : System) (c : Call) (n : Nat) :
    y.perform c n = ⟨(Task.steps y.tasks.length n (y.shared, c.task)).1,
      y.tasks ++ [(Task.steps y.tasks.length n (y.shared, c.task)).2]⟩ := by
  have hlast : (y.tasks ++ [c.task])[y.tasks.length]? = some c.task := List.getElem?_concat_length
  rw [perform, act_begin, acts_replicate n (y := ⟨_, _⟩) hlast,
    List.set_append_right _ _ (Nat.le_refl _), Nat.sub_self, List.set_cons_zero]

/-! ## §5. The operations of the session. -/

section

variable {s : Shared} {id : UInt64}

theorem Shared.others_of_fresh (h : ∀ t ∈ s.pending, t.id ≠ id) : s.others id = s.pending :=
  List.filter_eq_self.2 fun t ht => decide_eq_true (h t ht)

theorem Shared.under_of_fresh (h : ∀ t ∈ s.pending, t.id ≠ id) : s.under id = [] :=
  List.filter_eq_nil_iff.2 fun t ht => by simpa using h t ht

/-- Entering a request under a fresh id and withdrawing it changes nothing. -/
theorem Shared.withdraw_enter {t : Ticket} (h : ∀ u ∈ s.pending, u.id ≠ t.id) :
    (s.enter t).withdraw t = s := by
  have henter : s.enter t = { s with pending := s.pending ++ [t] } := by
    rw [enter, others_of_fresh h, under_of_fresh h]
    simp [refusals]
  have hothers := others_of_fresh h
  have hunder := under_of_fresh h
  unfold others at hothers
  unfold under at hunder
  rw [henter, withdraw, others, under]
  simp only [List.filter_append, hothers, hunder]
  simp [refusals]

end

theorem steps_returned (i n : Nat) (s : Shared) (result : Except Error Handle) :
    Task.steps i n (s, .dispatch (.returned result)) = (s, .dispatch (.returned result)) := by
  induction n with
  | zero => rfl
  | succ n ih => exact ih

/-- The steps of a dispatch behind the one that took an id. -/
theorem steps_encoded {s : Shared} (i : Nat) (id : UInt64) (framed : String)
    (hfresh : ∀ t ∈ s.pending, t.id ≠ id) :
    Task.steps i 3 (s, .dispatch (.encoded id framed)) =
      if s.writable then
        ({ s with pending := s.pending ++ [⟨id, i⟩], outbox := s.outbox ++ [framed] },
          .dispatch (.returned (.ok ⟨id, s.timeout⟩)))
      else (s, .dispatch (.returned (.error .closed))) := by
  have henter : s.enter ⟨id, i⟩ = { s with pending := s.pending ++ [⟨id, i⟩] } := by
    rw [Shared.enter, Shared.others_of_fresh hfresh, Shared.under_of_fresh hfresh]
    simp [Shared.refusals]
  show Task.steps i 1 ((Task.dispatch (.entered id framed)).step i none (s.enter ⟨id, i⟩)) = _
  by_cases hw : s.writable = true
  · have hwrite : (s.enter ⟨id, i⟩).write framed none
        = .ok { s.enter ⟨id, i⟩ with outbox := s.outbox ++ [framed] } := if_pos hw
    have hstep : (Task.dispatch (.entered id framed)).step i none (s.enter ⟨id, i⟩)
        = ({ s.enter ⟨id, i⟩ with outbox := s.outbox ++ [framed] },
          .dispatch (.returned (.ok ⟨id, s.timeout⟩))) := by
      simp only [Task.step, Dispatching.step, hwrite]
      rfl
    rw [hstep, steps_returned, if_pos hw, henter]
  · have hwrite : (s.enter ⟨id, i⟩).write framed none = .error .closed := if_neg hw
    have hstep : (Task.dispatch (.entered id framed)).step i none (s.enter ⟨id, i⟩)
        = (s.enter ⟨id, i⟩, .dispatch (.refused id .closed)) := by
      simp only [Task.step, Dispatching.step, hwrite]
      rfl
    rw [hstep, if_neg hw]
    show ((s.enter ⟨id, i⟩).withdraw ⟨id, i⟩, Task.dispatch (.returned (.error .closed))) = _
    rw [Shared.withdraw_enter hfresh]

/-- A dispatch on a session that is open, but perhaps cannot be written to any
more. -/
theorem dispatch_of_ok {s : Session} {form : Value} {package framed : String} {thread : Thread}
    (ho : ¬ s.closed = true) (hencode : encodeRequest s.nextId form package thread = .ok framed)
    (hfresh : s.nextId ∉ s.pending) :
    s.dispatch form package thread =
      if s.writable then
        (.ok ⟨s.nextId, s.timeout⟩,
          { s with
            nextId := s.nextId + 1
            pending := s.pending ++ [s.nextId]
            outbox := s.outbox ++ [framed] })
      else (.error .closed, { s with nextId := s.nextId + 1 }) := by
  rw [dispatch, if_neg ho]
  dsimp only
  rw [hencode]
  dsimp only [Session.write]
  by_cases hw : s.writable = true
  · rw [if_pos hw, if_pos hw]
  · rw [if_neg hw, if_neg hw]
    have herase : (s.pending ++ [s.nextId]).erase s.nextId = s.pending := by
      rw [List.erase_append_right _ hfresh, List.erase_cons_head, List.append_nil]
    rw [herase]

theorem dispatch_of_error {s : Session} {form : Value} {package : String} {thread : Thread}
    {e : EncodeError} (ho : ¬ s.closed = true)
    (hencode : encodeRequest s.nextId form package thread = .error e) :
    s.dispatch form package thread = (.error (.encode e), { s with nextId := s.nextId + 1 }) := by
  rw [dispatch, if_neg ho]
  dsimp only
  rw [hencode]

/-- The steps of a dispatch in a row do what the dispatch of the session does. -/
theorem steps_dispatch {s : Shared} (i : Nat) (rest : Session) (form : Value) (package : String)
    (thread : Thread) (hfresh : ∀ t ∈ s.pending, t.id ≠ s.nextId) :
    let sequential := (s.session rest).dispatch form package thread
    ∃ s', Task.steps i 5 (s, .dispatch (.called form package thread))
        = (s', .dispatch (.returned sequential.1)) ∧ s'.session rest = sequential.2 := by
  intro sequential
  show ∃ s', Task.steps i 4 ((Task.dispatch (.called form package thread)).step i none s) = _ ∧ _
  by_cases hc : s.closed = true
  · have hstep : (Task.dispatch (.called form package thread)).step i none s
        = (s, .dispatch (.returned (.error .closed))) := by
      simp only [Task.step, Dispatching.step, if_pos hc]
      rfl
    have hsequential : sequential = (.error .closed, s.session rest) := if_pos hc
    rw [hstep, steps_returned, hsequential]
    exact ⟨s, rfl, rfl⟩
  · have hstep : (Task.dispatch (.called form package thread)).step i none s
        = (s, .dispatch (.admitted form package thread)) := by
      simp only [Task.step, Dispatching.step, if_neg hc]
      rfl
    rw [hstep]
    show ∃ s', Task.steps i 3 ((Task.dispatch (.admitted form package thread)).step i none s) = _
      ∧ _
    cases hencode : encodeRequest s.nextId form package thread with
    | error e =>
        have hstep : (Task.dispatch (.admitted form package thread)).step i none s
            = ({ s with nextId := s.nextId + 1 }, .dispatch (.returned (.error (.encode e)))) := by
          simp only [Task.step, Dispatching.step, hencode]
          rfl
        have hsequential := dispatch_of_error (s := s.session rest) hc hencode
        rw [hstep, steps_returned, show sequential = _ from hsequential]
        exact ⟨_, rfl, rfl⟩
    | ok framed =>
        have hstep : (Task.dispatch (.admitted form package thread)).step i none s
            = ({ s with nextId := s.nextId + 1 }, .dispatch (.encoded s.nextId framed)) := by
          simp only [Task.step, Dispatching.step, hencode]
          rfl
        have hnew : (s.session rest).nextId ∉ (s.session rest).pending := by
          intro hmem
          obtain ⟨t, ht, hid⟩ := List.mem_map.1 hmem
          exact hfresh t ht hid
        have hsequential := dispatch_of_ok (s := s.session rest) hc hencode hnew
        rw [hstep, steps_encoded (s := { s with nextId := s.nextId + 1 }) i s.nextId framed hfresh,
          show sequential = _ from hsequential]
        by_cases hw : s.writable = true
        · rw [if_pos hw, if_pos (show (s.session rest).writable = true from hw)]
          refine ⟨_, rfl, ?_⟩
          simp [Shared.session]
        · rw [if_neg hw, if_neg (show ¬ (s.session rest).writable = true from hw)]
          exact ⟨_, rfl, rfl⟩

/-- **A dispatch that nobody interrupts** is the dispatch of the session, as long
as its id is not pending already. -/
theorem perform_dispatch (y : System) (rest : Session) (form : Value) (package : String)
    (thread : Thread) (hfresh : ∀ t ∈ y.shared.pending, t.id ≠ y.shared.nextId) :
    let sequential := (y.shared.session rest).dispatch form package thread
    let y' := y.perform (.dispatch form package thread) 5
    y'.shared.session rest = sequential.2
      ∧ y'.tasks = y.tasks ++ [.dispatch (.returned sequential.1)] := by
  intro sequential y'
  obtain ⟨s', hsteps, hs'⟩ := steps_dispatch y.tasks.length rest form package thread hfresh
  have hy' : y' = ⟨s', y.tasks ++ [.dispatch (.returned sequential.1)]⟩ := by
    show y.perform (.dispatch form package thread) 5 = _
    rw [System.perform_eq]
    exact congrArg (fun x : Shared × Task => System.mk x.1 (y.tasks ++ [x.2])) hsteps
  rw [hy']
  exact ⟨hs', rfl⟩

/-- What is under an id, as far as ids go. -/
theorem Shared.ids_under (s : Shared) (id : UInt64)
    (hsingle : (s.pending.map Ticket.id).Nodup) :
    (s.under id).map Ticket.id = if id ∈ s.pending.map Ticket.id then [id] else [] := by
  have hfilter : (s.under id).map Ticket.id = (s.pending.map Ticket.id).filter (· = id) := by
    rw [List.filter_map]
    rfl
  rw [hfilter, List.filter_eq]
  by_cases hid : id ∈ s.pending.map Ticket.id
  · have hone : (s.pending.map Ticket.id).count id = 1 :=
      Nat.le_antisymm (List.nodup_iff_count.1 hsingle id) (List.count_pos_iff.2 hid)
    rw [if_pos hid, hone]
    rfl
  · rw [if_neg hid, List.count_eq_zero_of_not_mem hid]
    rfl

theorem Shared.ids_others (s : Shared) (id : UInt64)
    (hsingle : (s.pending.map Ticket.id).Nodup) :
    (s.others id).map Ticket.id = (s.pending.map Ticket.id).erase id := by
  rw [hsingle.erase_eq_filter, List.filter_map]
  refine congrArg _ (List.filter_congr fun t _ => ?_)
  rw [Bool.eq_iff_iff]
  simp

theorem steps_reply (i : Nat) (s : Shared) (id : UInt64) (outcome : Outcome)
    (hsingle : (s.pending.map Ticket.id).Nodup) :
    Task.steps i 2 (s, .reply (.called id outcome)) =
      ({ s with
          pending := s.others id
          mailbox := s.mailbox ++ (s.under id).map (·, outcome) }, .reply (.delivering [])) := by
  have hlength : (s.under id).length ≤ 1 := by
    rw [← List.length_map Ticket.id, s.ids_under id hsingle]
    split
    · exact Nat.le_refl 1
    · exact Nat.zero_le 1
  show Task.steps i 1 ({ s with pending := s.others id },
    Task.reply (.delivering ((s.under id).map (·, outcome)))) = _
  match s.under id, hlength with
  | [], _ =>
      rw [List.map_nil, List.append_nil]
      rfl
  | [t], _ => rfl

/-- **An answer that is handled without interruption** is filed as the session
files it. -/
theorem perform_reply (y : System) (rest : Session) (id : UInt64) (outcome : Outcome)
    (hsingle : (y.shared.pending.map Ticket.id).Nodup) :
    let y' := y.perform (.reply id outcome) 2
    y'.shared.session rest = (y.shared.session rest).resolve id outcome
      ∧ y'.tasks = y.tasks ++ [.reply (.delivering [])] := by
  intro y'
  have hy' : y' = ⟨_, _⟩ := y.perform_eq (.reply id outcome) 2
  rw [Call.task, steps_reply _ _ _ _ hsingle] at hy'
  rw [hy']
  refine ⟨?_, rfl⟩
  have hothers := y.shared.ids_others id hsingle
  have hunder := y.shared.ids_under id hsingle
  have hletters : ((y.shared.under id).map fun t => (t, outcome)).map
      (fun l : Letter => (l.1.id, l.2)) = ((y.shared.under id).map Ticket.id).map (·, outcome) := by
    rw [List.map_map, List.map_map]
    rfl
  rw [Session.resolve]
  by_cases hid : id ∈ (y.shared.session rest).pending
  · rw [if_pos hid]
    rw [if_pos (show id ∈ y.shared.pending.map Ticket.id from hid)] at hunder
    simp only [Shared.session, List.map_append, hothers, hletters, hunder]
    rfl
  · rw [if_neg hid]
    rw [if_neg (show id ∉ y.shared.pending.map Ticket.id from hid)] at hunder
    have herase := List.erase_of_not_mem (show id ∉ y.shared.pending.map Ticket.id from hid)
    simp only [Shared.session, List.map_append, hothers, hletters, hunder, herase]
    simp

theorem steps_rejecting (i : Nat) (failure : Option String) (ls : List Letter) : ∀ s : Shared,
    Task.steps i ls.length (s, .shutDown failure (.rejecting ls))
      = ({ s with mailbox := s.mailbox ++ ls }, .shutDown failure (.rejecting [])) := by
  induction ls with
  | nil =>
      intro s
      rw [List.append_nil]
      rfl
  | cons l ls ih =>
      intro s
      show Task.steps i ls.length (s.deliver l, .shutDown failure (.rejecting ls)) = _
      rw [ih, Shared.deliver, List.append_assoc]
      rfl

theorem steps_finished (i n : Nat) (s : Shared) (failure : Option String) :
    Task.steps i n (s, .shutDown failure .finished) = (s, .shutDown failure .finished) := by
  induction n with
  | zero => rfl
  | succ n ih => exact ih

theorem steps_shutDown_of_closed (i n : Nat) {s : Shared} (hc : s.closed = true)
    (failure : Option String) :
    Task.steps i (n + 2) (s, .shutDown failure .called)
      = ({ s with writable := false }, .shutDown failure .finished) := by
  have hstep : (Task.shutDown failure .writerTaken).step i none { s with writable := false }
      = ({ s with writable := false }, .shutDown failure .finished) := by
    simp only [Task.step, ShuttingDown.step, if_pos hc]
    rfl
  show Task.steps i n
    ((Task.shutDown failure .writerTaken).step i none { s with writable := false }) = _
  rw [hstep, steps_finished]

theorem steps_shutDown_of_open (i : Nat) {s : Shared} (ho : ¬ s.closed = true)
    (failure : Option String) :
    Task.steps i (s.pending.length + 4) (s, .shutDown failure .called) =
      ({ s with
          writable := false
          closed := true
          pending := []
          mailbox := s.mailbox ++ Shared.refusals s.pending
          notices := s.notices ++ (failure.map Notice.failed).toList ++ [.closed] },
        .shutDown failure .finished) := by
  have hstep : (Task.shutDown failure .writerTaken).step i none { s with writable := false }
      = ({ s with writable := false, closed := true }, .shutDown failure .flagged) := by
    simp only [Task.step, ShuttingDown.step, if_neg ho]
    rfl
  have hlength : s.pending.length = (Shared.refusals s.pending).length := by
    rw [Shared.refusals, List.length_map]
  show Task.steps i (s.pending.length + 2)
    ((Task.shutDown failure .writerTaken).step i none { s with writable := false }) = _
  rw [hstep]
  show Task.steps i (s.pending.length + 1)
    ({ s with writable := false, closed := true, pending := [] },
      Task.shutDown failure (.rejecting (Shared.refusals s.pending))) = _
  rw [hlength, Task.steps_add, steps_rejecting]
  rfl

/-- **Shutting down without interruption** is what shutting the session down
does. -/
theorem perform_shutDown (y : System) (rest : Session) (failure : Option String) :
    let y' := y.perform (.shutDown failure) (y.shared.pending.length + 4)
    y'.shared.session rest = (y.shared.session rest).shutDown failure
      ∧ y'.tasks = y.tasks ++ [.shutDown failure .finished] := by
  intro y'
  have hy' : y' = ⟨_, _⟩ := y.perform_eq (.shutDown failure) _
  rw [Call.task] at hy'
  by_cases hc : y.shared.closed = true
  · rw [steps_shutDown_of_closed _ (y.shared.pending.length + 2) hc] at hy'
    rw [hy']
    refine ⟨?_, rfl⟩
    unfold Session.shutDown
    dsimp only [Shared.session]
    rw [if_pos hc]
  · rw [steps_shutDown_of_open _ hc] at hy'
    rw [hy']
    refine ⟨?_, rfl⟩
    unfold Session.shutDown
    dsimp only [Shared.session]
    rw [if_neg hc]
    simp [Shared.refusals]

end LispLink.Session.Interleaved
