/-
  LispLink.Proofs.Session.Requests
  ────────────────────────────────
  **TEXT OF THE USER STAYS TEXT.**

  Seven operations of the image take text that the user has typed or chosen: an
  expression, a name, a path.  Whatever it says, and whatever the package of the
  session is called, a request is one form, and the text is a string in it:

      (:emacs-rex (operator "text" …) "package" t id)

  A string is escaped where it is written and unescaped where it is read, so
  nothing in it ends it early.  The operators are names that a word can hold,
  and everything else in a request is an atom; so a request reads back as itself
  (`parse_request`).
-/
import LispLink.Session.Command
import LispLink.Proofs.Session.Runs
import LispLink.Proofs.Value.Normal
import LispLink.Proofs.Wire.RoundTrip

namespace LispLink

open Source Wire

/-! ## §1. Values that read back as themselves. -/

namespace Value

/-- Whether a value is an atom that survives being written. -/
structure IsPlain (v : Value) : Prop where
  isWireSafe : v.isWireSafe = true
  depth : v.depth = 0

theorem isPlain_str (s : String) : IsPlain (str s) := ⟨rfl, rfl⟩

theorem isPlain_t : IsPlain t := ⟨rfl, rfl⟩

theorem isPlain_nil : IsPlain nil := ⟨rfl, rfl⟩

theorem isPlain_symbol {name : String} (h : IsSymbolName name) : IsPlain (symbol name) :=
  ⟨decide_eq_true h, rfl⟩

/-- A list with elements reads back as itself if its elements do. -/
theorem normal_list_eq_self {v : Value} {vs : List Value} (h : ∀ w ∈ v :: vs, w.normal = w) :
    (list (v :: vs)).normal = list (v :: vs) := by
  rw [normal_list_of_ne_nil (List.cons_ne_nil v vs), List.map_congr_left h, List.map_id']

section

variable {operator : String} {args : List Value}

theorem isPlain_of_mem_call (hop : IsSymbolName operator) (hargs : ∀ v ∈ args, IsPlain v) :
    ∀ v ∈ symbol operator :: args, IsPlain v :=
  List.forall_mem_cons.2 ⟨isPlain_symbol hop, hargs⟩

/-- A call of atoms survives being written, and is one level that reads back as
itself. -/
theorem call_of_isPlain (hop : IsSymbolName operator) (hargs : ∀ v ∈ args, IsPlain v) :
    (call operator args).isWireSafe = true ∧ (call operator args).depth ≤ 1
      ∧ (call operator args).normal = call operator args := by
  have hplain := isPlain_of_mem_call hop hargs
  refine ⟨?_, ?_, normal_list_eq_self fun v hv => normal_atom (hplain v hv).depth⟩
  · rw [call, isWireSafe, areWireSafe_iff]
    exact fun v hv => (hplain v hv).isWireSafe
  · have hdepths : depths (symbol operator :: args) ≤ 0 :=
      depths_le.2 fun v hv => Nat.le_of_eq (hplain v hv).depth
    rw [call, depth]
    omega

/-- **A request for a call of atoms reads back as itself**, and its text holds
nothing else. -/
theorem parse_request (hop : IsSymbolName operator) (hargs : ∀ v ∈ args, IsPlain v)
    (id : UInt64) (package : String) :
    let request := requestMessage id (call operator args) package .any
    ∃ e, parse request.encode = [e] ∧ ofSexp e = request := by
  intro request
  obtain ⟨hsafe, hdepth, hnormal⟩ := call_of_isPlain hop hargs
  have hname : IsName "emacs-rex" := by decide
  let vs := [call operator args, str package, t, int (Int64.ofNat id.toNat)]
  have hsafes : ∀ v ∈ vs, v.isWireSafe = true := by
    simp only [vs, List.forall_mem_cons]
    exact ⟨hsafe, rfl, rfl, rfl, nofun⟩
  -- the call is the only element with a level of its own
  have hdepths : ∀ v ∈ vs, v.depth ≤ maxDepth := by
    simp only [vs, List.forall_mem_cons]
    exact ⟨Nat.le_trans hdepth (by decide), Nat.zero_le _, Nat.zero_le _, Nat.zero_le _, nofun⟩
  have hself : vs.map normal = vs := by
    simp only [vs, List.map_cons, hnormal]
    rfl
  have hreads := parse_message hname hsafes hdepths
  rwa [hself] at hreads

end

end Value

/-! ## §2. Commands with text of the user. -/

namespace Session

open Reply

/-- The operations that take text of the user. -/
inductive TextCommand where
  | eval (expression : String)
  | evalAndGrabOutput (expression : String)
  | completions (stem : String)
  | describeSymbol (name : String)
  | operatorArglist (name : String)
  | loadFile (path : String)
  | compileFile (path : String) (load : Bool)

namespace TextCommand

/-- What the answer of an operation is read as. -/
def Answer : TextCommand → Type
  | eval _ | describeSymbol _ | loadFile _ => String
  | evalAndGrabOutput _ => String × String
  | completions _ => Completions
  | operatorArglist _ => Option String
  | compileFile _ _ => Compilation

/-- The operation as a command, asked for in a package. -/
def command (package : String) : (c : TextCommand) → Command c.Answer
  | eval expression => Command.eval expression
  | evalAndGrabOutput expression => Command.evalAndGrabOutput expression
  | completions stem => Command.completions package stem
  | describeSymbol name => Command.describeSymbol name
  | operatorArglist name => Command.operatorArglist package name
  | loadFile path => Command.loadFile path
  | compileFile path load => Command.compileFile path load

/-- The function of the image that does it. -/
def operator : TextCommand → String
  | eval _ => "swank:interactive-eval"
  | evalAndGrabOutput _ => "swank:eval-and-grab-output"
  | completions _ => "swank:simple-completions"
  | describeSymbol _ => "swank:describe-symbol"
  | operatorArglist _ => "swank:operator-arglist"
  | loadFile _ => "swank:load-file"
  | compileFile _ _ => "swank:compile-file-for-emacs"

/-- What the function is called with. -/
def args (package : String) : TextCommand → List Value
  | eval text | evalAndGrabOutput text | describeSymbol text | loadFile text => [.str text]
  | completions text | operatorArglist text => [.str text, .str package]
  | compileFile path load => [.str path, if load then .t else .nil]

/-- The one form that the image is to read. -/
def request (c : TextCommand) (package : String) (id : UInt64) : Value :=
  .list [.keyword "emacs-rex", .list (.symbol c.operator :: c.args package), .str package, .t,
    .int (Int64.ofNat id.toNat)]

theorem form_command (package : String) (c : TextCommand) :
    (c.command package).form = .call c.operator (c.args package)
      ∧ (c.command package).thread = .any := by
  cases c <;> exact ⟨rfl, rfl⟩

/-- A request that was not sent fails as it does. -/
theorem read_error (package : String) (c : TextCommand) (e : Error) :
    (c.command package).read (.error e) = .error e := by
  cases c <;> rfl

theorem isSymbolName_operator (c : TextCommand) : Value.IsSymbolName c.operator := by
  have hnames : ∀ name ∈ ["swank:interactive-eval", "swank:eval-and-grab-output",
      "swank:simple-completions", "swank:describe-symbol", "swank:operator-arglist",
      "swank:load-file", "swank:compile-file-for-emacs"], Value.IsSymbolName name := by
    decide
  apply hnames
  cases c <;> simp [operator]

theorem isPlain_args (package : String) (c : TextCommand) :
    ∀ v ∈ c.args package, v.IsPlain := by
  have htext : ∀ s, ∀ v ∈ [Value.str s], v.IsPlain := fun s =>
    List.forall_mem_singleton.2 (Value.isPlain_str s)
  have htexts : ∀ s, ∀ v ∈ [Value.str s, .str package], v.IsPlain := fun s =>
    List.forall_mem_cons.2 ⟨Value.isPlain_str s, htext package⟩
  cases c with
  | eval text => exact htext text
  | evalAndGrabOutput text => exact htext text
  | completions text => exact htexts text
  | describeSymbol text => exact htext text
  | operatorArglist text => exact htexts text
  | loadFile text => exact htext text
  | compileFile path load =>
      refine List.forall_mem_cons.2 ⟨Value.isPlain_str path, List.forall_mem_singleton.2 ?_⟩
      cases load
      · exact Value.isPlain_nil
      · exact Value.isPlain_t

/-- The request of an operation reads back as itself. -/
theorem parse_encode_request (c : TextCommand) (package : String) (id : UInt64) :
    ∃ e, parse (c.request package id).encode = [e]
      ∧ Value.ofSexp e = c.request package id :=
  Value.parse_request c.isSymbolName_operator (c.isPlain_args package) id package

theorem encodeRequest_command {id : UInt64} (hid : id ≤ maxId) (c : TextCommand)
    (package : String) :
    encodeRequest id (c.command package).form package (c.command package).thread
      = frame (c.request package id).encode := by
  obtain ⟨hform, hthread⟩ := c.form_command package
  rw [hform, hthread, encodeRequest, if_neg (UInt64.not_lt.2 hid)]
  rfl

end TextCommand

/-! ## §3. Asking an open session. -/

/-- A session that has written the frame of a request. -/
def requested (s : Session) (framed : String) : Session :=
  { s with
    nextId := s.nextId + 1
    pending := s.pending ++ [s.nextId]
    outbox := s.outbox ++ [framed] }

section

variable {s : Session}

theorem call_of_frame_error (h : s.IsSteady) (ho : s.closed = false) (hid : s.nextId ≤ maxId)
    (c : TextCommand) {e : EncodeError}
    (hframe : frame (c.request s.package s.nextId).encode = .error e)
    (answer : UInt64 → Burst) :
    s.call (c.command s.package) answer
      = (.error (.encode e), { s with nextId := s.nextId + 1 }) := by
  rw [call, dispatch_of_open h ho, c.encodeRequest_command hid, hframe]
  dsimp only
  rw [c.read_error]

theorem call_of_framed (h : s.IsSteady) (ho : s.closed = false) (hid : s.nextId ≤ maxId)
    (c : TextCommand) {framed : String}
    (hframe : frame (c.request s.package s.nextId).encode = .ok framed)
    (answer : UInt64 → Burst) :
    let after := (s.requested framed).observe (answer s.nextId)
    s.call (c.command s.package) answer
      = ((c.command s.package).read (after.outcome ⟨s.nextId, s.timeout⟩), after) := by
  intro after
  rw [call, dispatch_of_open h ho, c.encodeRequest_command hid, hframe]
  rfl

/-- **Text of the user stays text.**  Whatever the user says, and whatever the
package of the session is called, an open session that is asked for one of these
operations either fails because the request fits no frame, and has written
nothing; or it has written one frame, whose payload is one form: the request,
with the text as strings in their places.  What comes of it is up to the image's
answer. -/
theorem text_stays_text (h : s.IsSteady) (ho : s.closed = false) (hid : s.nextId ≤ maxId)
    (c : TextCommand) :
    let request := c.request s.package s.nextId
    (Int64.ofNat s.nextId.toNat).toInt = s.nextId.toNat
      ∧ ((maxPayload < request.encode.utf8ByteSize
          ∧ ∀ answer, s.call (c.command s.package) answer
              = (.error (.encode (.payloadTooLarge request.encode.utf8ByteSize)),
                  { s with nextId := s.nextId + 1 }))
        ∨ ∃ framed,
          (∀ answer : UInt64 → Burst,
            let after := (s.requested framed).observe (answer s.nextId)
            s.call (c.command s.package) answer
              = ((c.command s.package).read (after.outcome ⟨s.nextId, s.timeout⟩), after))
          ∧ FrameReader.new.feed (Text.utf8 framed)
              = (.ok (), ⟨.inHeader [], [Text.utf8 (behindHeader framed)]⟩)
          ∧ ∃ e, parse (behindHeader framed) = [e] ∧ Value.ofSexp e = request) := by
  intro request
  refine ⟨?_, ?_⟩
  · refine Int64.toInt_ofNat_of_lt ?_
    exact Nat.lt_succ_of_le (UInt64.le_iff_toNat_le.1 hid)
  · cases hframe : frame request.encode with
    | error e =>
        -- a request has no other reason not to fit: its id is no greater than `maxId`
        obtain ⟨hlong, rfl⟩ := (frame_eq_error_iff request.encode e).1 hframe
        exact .inl ⟨hlong, call_of_frame_error h ho hid c hframe⟩
    | ok framed =>
        refine .inr ⟨framed, call_of_framed h ho hid c hframe, ?_, ?_⟩
        · rw [behindHeader_framed hframe, FrameReader.feed_eq_pushAll rfl]
          exact pushAll_framed hframe []
        · rw [behindHeader_framed hframe]
          exact c.parse_encode_request s.package s.nextId

/-- An expression that tries to end its string and the form and to start a comment,
in a session whose package has a name of the same kind. -/
theorem text_stays_text_quotes :
    let s := { attached with package := "A\") (" }
    let c := TextCommand.eval "1\\\") (quit) ; |"
    s.IsSteady ∧ s.closed = false ∧ s.nextId ≤ maxId ∧ ∃ framed,
      (s.call (c.command s.package) fun _ => .hangUp).2.outbox = [framed]
      ∧ ∃ e, parse (behindHeader framed) = [e] ∧ Value.ofSexp e = .list [.keyword "emacs-rex",
          .list [.symbol "swank:interactive-eval", .str "1\\\") (quit) ; |"],
          .str "A\") (", .t, .int 1] := by
  intro s c
  have h : s.IsSteady := isSteady_of_same isSteady_attached rfl rfl rfl
  have hid : s.nextId ≤ maxId := by decide
  refine ⟨h, rfl, hid, ?_⟩
  obtain ⟨hlong, _⟩ | ⟨framed, hcall, _, hreads⟩ := (text_stays_text h rfl hid c).2
  · exact absurd hlong (by decide)
  · refine ⟨framed, ?_, hreads⟩
    rw [hcall]
    show ((s.requested framed).deliver []).endOfStream.answerPings.outbox = [framed]
    rw [deliver, pieces]
    rfl

end

end Session

end LispLink
